import AmuleRemote.Lib.Run
import AmuleRemote.App.System

/-!
# Whose preferences are written

The preferences that the worker sends were loaded into the panel from a daemon,
and it should be the daemon that they are sent to. What the panel holds, which
connection the worker has and which fetches succeeded all change on their own,
and nothing checks that they still belong together: not when Apply is clicked,
and not when the command reaches the worker.

Which daemon a connection reaches is a parameter: any map from the numbers of
connections will do.
-/

namespace Amule

open Ec

/-- An exchange that writes the preferences. -/
def Event.writes : Event → Bool
  | .exchange _ request _ => request.opcode = Op.setPreferences
  | .emit _ _ => false

namespace System

variable {δ : Type*} (daemon : ℕ → δ)

/-- `source` is a connection to the daemon of connection `id`. -/
def SameDaemon (source : Option EcClient) (id : ℕ) : Prop :=
  ∃ client, source = some client ∧ daemon client.id = daemon id

/-- The preferences written in the step were collected from a panel loaded with what a
    connection to the same daemon had reported. -/
def SendsLoaded (s s' : System) : Prop :=
  ∀ client request reply,
    .exchange client request reply ∈ s'.session.trace.drop s.session.trace.length →
    request.opcode = Op.setPreferences →
      ∃ (panel : PreferencesPanel) (source : EcClient) (rest : List Command),
        s.commands = ⟨.applyPrefs panel.collect, some source⟩ :: rest ∧
        request = setPrefsRequest panel.collect ∧ panel.collect.loaded = true ∧
        Fetched source panel.current s.session.trace ∧ daemon source.id = daemon client.id

/-- Apply is clicked only when the panel shows the preferences of the daemon the worker is
    connected to, and a connection is made only when the preferences that wait to be applied
    are the new daemon's. -/
def AppliesOwn (s : System) : Action → Prop
  | .applyClicked => s.window.connected = true → ∀ client,
    s.session.worker.client = some client → SameDaemon daemon s.window.source client.id
  | .run network => ∀ c rest, s.commands = c :: rest → Call.Connects ⟨c.slot, network⟩ →
    ∀ c' ∈ rest, ∀ prefs, c'.slot = .applyPrefs prefs →
      SameDaemon daemon c'.source s.session.nextId
  | _ => True

/-- Preferences that wait, as a signal or as a command, belong to the connection they name. -/
structure Owned (s : System) : Prop where
  signals : ∀ m ∈ s.signals, ∀ prefs, m.signal = .prefsUpdated prefs →
    ∃ client, m.client = some client ∧ Fetched client prefs s.session.trace
  panel : ∀ client, s.window.source = some client →
    Fetched client s.window.preferences.current s.session.trace
  collected : ∀ c ∈ s.commands, ∀ prefs, c.slot = .applyPrefs prefs →
    ∃ panel : PreferencesPanel, prefs = panel.collect ∧
      ∀ client, c.source = some client → Fetched client panel.current s.session.trace
  same : ∀ c ∈ s.commands, ∀ prefs, c.slot = .applyPrefs prefs →
    ∀ client, s.session.worker.client = some client → SameDaemon daemon c.source client.id

variable {daemon} {s : System}

theorem loaded_collect (panel : PreferencesPanel) :
    panel.collect.loaded = panel.current.loaded := by
  rw [PreferencesPanel.collect_eq]

theorem Owned.enqueue (h : s.Owned daemon) {command : Command}
    (hcommand : ∀ prefs, command.slot ≠ .applyPrefs prefs) : (s.enqueue command).Owned daemon where
  signals := h.signals
  panel := h.panel
  collected :=
    forall_mem_enqueue.mpr ⟨h.collected, fun prefs hslot => absurd hslot (hcommand prefs)⟩
  same := forall_mem_enqueue.mpr ⟨h.same, fun prefs hslot => absurd hslot (hcommand prefs)⟩

/-- Apply is clicked while the panel shows the preferences of the right daemon. -/
theorem Owned.apply (h : s.Owned daemon) (hown : ∀ client,
    s.session.worker.client = some client → SameDaemon daemon s.window.source client.id) :
    (s.enqueue ⟨.applyPrefs s.window.preferences.collect, s.window.source⟩).Owned daemon where
  signals := h.signals
  panel := h.panel
  collected := by
    refine forall_mem_enqueue.mpr ⟨h.collected, ?_⟩
    intro prefs hslot
    exact ⟨s.window.preferences, (Slot.applyPrefs.inj hslot).symm, h.panel⟩
  same := forall_mem_enqueue.mpr ⟨h.same, fun _ _ => hown⟩

/-- A change of the window that leaves what the panel was loaded with. -/
theorem Owned.window (h : s.Owned daemon) {window : Window}
    (hsource : window.source = s.window.source)
    (hcurrent : window.preferences.current = s.window.preferences.current) :
    Owned daemon { s with window } where
  signals := h.signals
  panel client hclient := by
    show Fetched client window.preferences.current s.session.trace
    rw [hcurrent]
    exact h.panel client (hsource ▸ hclient)
  collected := h.collected
  same := h.same

theorem Owned.delivered (h : s.Owned daemon) {m : Message} {signals : List Message}
    (hsignals : s.signals = m :: signals) :
    Owned daemon { s with window := s.window.receive m, signals } where
  signals m' hm' := h.signals m' (hsignals ▸ List.mem_cons_of_mem m hm')
  panel := by
    have hm := h.signals m (hsignals ▸ List.mem_cons_self)
    obtain ⟨signal, held, search⟩ := m
    cases signal with
    | prefsUpdated prefs =>
      -- the panel is given the preferences and the connection of the message
      intro client hclient
      obtain ⟨client', hheld, hfetched⟩ := hm prefs rfl
      have hsame : client' = client := Option.some.inj (hheld.symm.trans hclient)
      exact hsame ▸ hfetched
    | _ => exact h.panel
  collected := h.collected
  same := h.same

/-- The worker's connection changes only where a connect is answered. -/
theorem Owned.call [Qt] (h : s.Owned daemon) {c : Call} (hconnect : c.Connects →
    ∀ c' ∈ s.commands, ∀ prefs, c'.slot = .applyPrefs prefs →
      SameDaemon daemon c'.source s.session.nextId) : (s.call c).Owned daemon := by
  obtain ⟨events, heffect⟩ := s.call_spec c
  refine ⟨?_, ?_, ?_, ?_⟩
  · intro m hm prefs hsignal
    rcases heffect.mem_signals hm with hold | ⟨-, hnew⟩
    · obtain ⟨client, hclient, hfetched⟩ := h.signals m hold prefs hsignal
      exact ⟨client, hclient, hfetched.mono heffect.subset_trace⟩
    · have hallowed := heffect.allowed _ hnew
      rw [hsignal] at hallowed
      exact hallowed
  · intro client hsource
    exact (h.panel client hsource).mono heffect.subset_trace
  · intro c' hc' prefs hslot
    obtain ⟨panel, heq, hfetched⟩ := h.collected c' hc' prefs hslot
    exact ⟨panel, heq, fun client hsource => (hfetched client hsource).mono heffect.subset_trace⟩
  · -- the connection held is the old one, or a new one over commands that wait for its daemon
    intro c' hc' prefs hslot client hheld
    rcases heffect.client client hheld with hsame | ⟨hconnects, hid⟩
    · exact h.same c' hc' prefs hslot client hsame
    · rw [hid]
      exact hconnect hconnects c' hc' prefs hslot

/-- A step that leaves the session alone writes nothing. -/
theorem sendsLoaded_of_session_eq {s' : System} (h : s'.session = s.session) :
    s.SendsLoaded daemon s' := by
  intro client request reply hmem
  rw [h, List.drop_length] at hmem
  exact absurd hmem List.not_mem_nil

/-- The worker writes the preferences of the command it has taken. -/
theorem Owned.sends [Qt] (h : s.Owned daemon) {c : Command} {commands : List Command}
    (hcommands : s.commands = c :: commands) (network : Network) :
    s.SendsLoaded daemon ({ s with commands }.call ⟨c.slot, network⟩) := by
  obtain ⟨events, heffect⟩ := { s with commands }.call_spec ⟨c.slot, network⟩
  intro client request reply hmem hop
  rw [heffect.trace, List.drop_left] at hmem
  obtain ⟨hheld, prefs, hslot, hrequest⟩ := heffect.allowed _ hmem hop
  have hc : c ∈ s.commands := hcommands ▸ List.mem_cons_self
  obtain ⟨source, hsource, hsame⟩ := h.same c hc prefs hslot client hheld
  obtain ⟨panel, rfl, hfetched⟩ := h.collected c hc prefs hslot
  refine ⟨panel, source, commands, ?_, hrequest, ?_, hfetched source hsource, hsame⟩
  · obtain ⟨slot, held⟩ := c
    rw [hcommands]
    exact congrArg (· :: commands) (congrArg₂ Command.mk hslot hsource)
  · rw [loaded_collect]
    exact (hfetched source hsource).loaded

/-- The timer writes nothing. -/
theorem sendsLoaded_fired [Qt] (s : System) (network : Network) :
    s.SendsLoaded daemon (s.call ⟨.timeout, network⟩) := by
  obtain ⟨events, heffect⟩ := s.call_spec ⟨.timeout, network⟩
  intro client request reply hmem hop
  rw [heffect.trace, List.drop_left] at hmem
  obtain ⟨-, prefs, hslot, -⟩ := heffect.allowed _ hmem hop
  exact absurd hslot nofun

theorem owned_step [Qt] (s : System) (act : Action) (h : s.Owned daemon)
    (hown : s.AppliesOwn daemon act) :
    (s.step act).Owned daemon ∧ s.SendsLoaded daemon (s.step act) := by
  have hstep := s.steps act
  generalize s.step act = s' at hstep
  cases hstep with
  | idle => exact ⟨h, sendsLoaded_of_session_eq rfl⟩
  | command hslot => exact ⟨h.enqueue hslot.apply, sendsLoaded_of_session_eq rfl⟩
  | edited panel => exact ⟨h.window rfl rfl, sendsLoaded_of_session_eq rfl⟩
  | applied hconnected => exact ⟨h.apply (hown hconnected), sendsLoaded_of_session_eq rfl⟩
  | @searched query fileType kind search params hsearch =>
    have hwindow : Owned daemon { s with window := { s.window with search } } := h.window rfl rfl
    exact ⟨hwindow.enqueue nofun, sendsLoaded_of_session_eq rfl⟩
  | @closed index search stops hclose _ hs' =>
    have hwindow : Owned daemon { s with window := { s.window with search } } := h.window rfl rfl
    cases stops with
    | true =>
      subst hs'
      exact ⟨hwindow.enqueue nofun, sendsLoaded_of_session_eq rfl⟩
    | false =>
      subst hs'
      exact ⟨hwindow, sendsLoaded_of_session_eq rfl⟩
  | delivered hsignals => exact ⟨h.delivered hsignals, sendsLoaded_of_session_eq rfl⟩
  | @ran c commands network hcommands =>
    refine ⟨Owned.call ?_ (hown c commands hcommands), h.sends hcommands network⟩
    have hsub {c' : Command} (hc' : c' ∈ commands) : c' ∈ s.commands :=
      hcommands ▸ List.mem_cons_of_mem c hc'
    exact ⟨h.signals, h.panel, fun c' hc' => h.collected c' (hsub hc'),
      fun c' hc' => h.same c' (hsub hc')⟩
  | fired network =>
    refine ⟨h.call fun hconnects => hconnects.elim, s.sendsLoaded_fired network⟩

/-- In every run in which Apply is clicked and connections are made over preferences of the
    right daemon, only loaded preferences are written, and to the daemon they came from. -/
theorem sendsLoaded_of_appliesOwn [Qt] (acts : List Action)
    (h : Run.Along step (AppliesOwn daemon) {} acts) :
    Run.Along step (fun s act => s.SendsLoaded daemon (s.step act)) {} acts := by
  refine Run.along_of_invariant owned_step ⟨?_, ?_, ?_, ?_⟩ h
  · exact fun m hm => absurd hm List.not_mem_nil
  · exact fun client hclient => absurd hclient nofun
  · exact fun c hc => absurd hc List.not_mem_nil
  · exact fun c hc => absurd hc List.not_mem_nil

/-- Connect, wait until the preferences would have arrived, and apply. -/
def connectAndApply (prefs : Except EcError Packet) : List Action :=
  [.connectClicked (.lit "localhost") 4712 [],
    .run { replies := fun n => if n = 1 then prefs else .ok ⟨Op.authOk, []⟩ },
    .delivered, .delivered, .delivered, .delivered, .delivered,
    .applyClicked, .run .friendly]

/-- A fetch that fails leaves the defaults in the panel, and Apply sends them, whatever the
    daemons are. -/
theorem overwrites_after_failed_fetch : ¬Run.Along (@step sampleQt)
    (fun s act => s.SendsLoaded (fun _ => ()) (@step sampleQt s act)) {}
    (connectAndApply (.error ⟨.remote, .lit "malformed packet"⟩)) := by
  intro h
  obtain ⟨-, -, -, -, -, -, -, -, hsends, -⟩ := h
  revert hsends
  let s : System := (connectAndApply (.error ⟨.remote, .lit "malformed packet"⟩)).dropLast.foldl
    (@step sampleQt) {}
  show ¬s.SendsLoaded (fun _ => ()) (@step sampleQt s (.run .friendly))
  have hwrites : ((@step sampleQt s (.run .friendly)).session.trace.drop
      s.session.trace.length).any Event.writes = true := by decide +kernel
  have hsource : s.commands.map Command.source = [none] := by decide +kernel
  intro hsends
  obtain ⟨ev, hev, hwrites⟩ := List.any_eq_true.mp hwrites
  cases ev with
  | emit client signal => exact absurd hwrites nofun
  | exchange client request reply =>
    obtain ⟨panel, source, rest, hcommands, -⟩ :=
      hsends client request reply hev (of_decide_eq_true hwrites)
    rw [hcommands] at hsource
    exact absurd hsource nofun

/-- The fetch succeeds, and its preferences are in the panel when Apply is clicked. -/
theorem sendsLoaded_connectAndApply : Run.Along (@step sampleQt)
    (fun s act => s.SendsLoaded id (@step sampleQt s act)) {}
    (connectAndApply (.ok ⟨Op.setPreferences, []⟩)) := by
  have hlast (s : System) (network : Network) (hlen : s.commands.length ≤ 1) :
      s.AppliesOwn id (.run network) := by
    intro c rest hcommands _ c' hc'
    rw [hcommands, List.length_cons] at hlen
    have hrest : rest = [] := List.length_eq_zero_iff.mp (by omega)
    rw [hrest] at hc'
    exact absurd hc' List.not_mem_nil
  refine @sendsLoaded_of_appliesOwn _ id sampleQt _
    ⟨trivial, hlast _ _ ?_, trivial, trivial, trivial, trivial, trivial, ?_, hlast _ _ ?_, trivial⟩
  · decide +kernel
  · intro _ client hclient
    refine ⟨client, ?_, rfl⟩
    rw [← hclient]
    decide +kernel
  · decide +kernel

end System

end Amule
