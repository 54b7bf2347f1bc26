import Mathlib.Data.List.DropRight
import AmuleRemote.App.DownloadTable
import AmuleRemote.App.System
import AmuleRemote.Ec.Blocks

/-!
# The tables of the window

A refresh is reported in six signals, and the window takes them one by one, with
whatever the user does in between. Each gives one of its tables or labels something
to show. Once the window has caught up they have therefore been given one refresh,
the last that has reported; until then the first few may already have been given the
next one.

Three tables show what they were given. The table of the downloads shows the queue
and, behind it, downloads that an earlier queue had as finished; and the labels are
cleared whenever the window is told that it is not connected.

## Main results

- `Tables.shows_told` — what the window shows, in terms of what it was given
- `System.tables_agree` — it was given one report, with a beginning of the next one
-/

namespace Amule

open Ec

/-- What the window was last given by each of the six signals. -/
structure Given where
  stats : Option Stats := none
  downloads : Option (List Download) := none
  connState : Option ConnState := none
  servers : Option (List Server) := none
  sharedFiles : Option (List SharedFile) := none
  sources : Option (List SourceClient) := none

namespace Given

def receive (g : Given) : Signal → Given
  | .statsUpdated stats => { g with stats := some stats }
  | .downloadsUpdated downloads => { g with downloads := some downloads }
  | .connStateUpdated conn => { g with connState := some conn }
  | .serversUpdated servers => { g with servers := some servers }
  | .sharedFilesUpdated files => { g with sharedFiles := some files }
  | .sourcesUpdated sources => { g with sources := some sources }
  | _ => g

/-- What these signals give. -/
def ofSignals (told : List Signal) : Given := told.foldl receive {}

/-- What a report gives. -/
def of (r : Report) : Given where
  stats := some (statsOf r.snapshot.stats)
  downloads := some (downloadsOf r.snapshot.downloads)
  connState := some (connStateOf r.snapshot.connState)
  servers := some (serversOf r.snapshot.servers)
  sharedFiles := some (sharedFilesOf r.snapshot.sharedFiles)
  sources := some (EcWorker.sortedSources (r.snapshot.sources r.worker))

/-- What was given last by these reports; there is nothing before the first. -/
def after (reports : List Report) : Given := (reports.getLast?.map of).getD {}

theorem ofSignals_concat (told : List Signal) (signal : Signal) :
    ofSignals (told ++ [signal]) = (ofSignals told).receive signal := List.foldl_concat ..

end Given

/-! ## What the window shows -/

/-- The tables of the window and its two labels, of which a cleared one has no value. -/
structure Tables where
  statsLabel : Option Stats := none
  netLabel : Option ConnState := none
  screen : MainWindow.Screen := {}
  servers : List Server := []
  sharedFiles : List SharedFile := []
  sources : List SourceClient := []

namespace Tables

def onStatusChanged (t : Tables) (status : ConnStatus) : Tables :=
  let t := { t with screen := t.screen.step (.statusChanged status) }
  if status ≠ .connected then { t with statsLabel := none, netLabel := none } else t

def receive (t : Tables) : Signal → Tables
  | .statusChanged status _ => t.onStatusChanged status
  | .statsUpdated stats => { t with statsLabel := some stats }
  | .downloadsUpdated queue => { t with screen := t.screen.step (.downloadsUpdated queue) }
  | .connStateUpdated conn => { t with netLabel := some conn }
  | .serversUpdated servers => { t with servers }
  | .sharedFilesUpdated sharedFiles => { t with sharedFiles }
  | .sourcesUpdated sources => { t with sources }
  | _ => t

end Tables

/-- The window is told that it is not connected. -/
def Signal.offline : Signal → Bool
  | .statusChanged status _ => status ≠ .connected
  | _ => false

/-- What has been told since the window was last told that it is not connected. -/
def online (told : List Signal) : List Signal := told.rtakeWhile fun signal => !signal.offline

theorem ofSignals_online_concat (told : List Signal) (signal : Signal) :
    Given.ofSignals (online (told ++ [signal])) =
      if signal.offline then {} else (Given.ofSignals (online told)).receive signal := by
  rw [online, List.rtakeWhile_concat]
  cases signal.offline with
  | true => rfl
  | false => exact Given.ofSignals_concat _ _

/-- One of the queues that have been told lists the download. -/
def Listed (told : List Signal) (d : Download) : Prop :=
  ∃ queue, .downloadsUpdated queue ∈ told ∧ d ∈ queue

theorem Listed.concat {told : List Signal} {d : Download} (h : Listed told d) (signal : Signal) :
    Listed (told ++ [signal]) d := by
  obtain ⟨queue, htold, hd⟩ := h
  exact ⟨queue, List.mem_append_left _ htold, hd⟩

theorem listed_concat {told : List Signal} {queue : List Download} {d : Download} (h : d ∈ queue) :
    Listed (told ++ [.downloadsUpdated queue]) d := ⟨queue, List.mem_concat_self, h⟩

/-- A download as completed that a queue listed when it was finished. -/
def Finished (told : List Signal) (r : Download) : Prop :=
  ∃ d, Listed told d ∧ isFinished d = true ∧ r = asCompleted d

theorem Finished.concat {told : List Signal} {r : Download} (h : Finished told r)
    (signal : Signal) : Finished (told ++ [signal]) r := by
  obtain ⟨d, hlisted, hrest⟩ := h
  exact ⟨d, hlisted.concat signal, hrest⟩

namespace Tables

/-- The tables show what the window was given, and the labels what it was given online. -/
structure Shows (t : Tables) (told : List Signal) : Prop where
  statsLabel : t.statsLabel = (Given.ofSignals (online told)).stats
  netLabel : t.netLabel = (Given.ofSignals (online told)).connState
  /-- the queue, and finished downloads behind it that are not in the queue -/
  downloads : ∃ retained,
    t.screen.model.downloads = (Given.ofSignals told).downloads.getD [] ++ retained ∧
      ∀ r ∈ retained, Finished told r ∧
        inList ((Given.ofSignals told).downloads.getD []) r = false
  servers : t.servers = (Given.ofSignals told).servers.getD []
  sharedFiles : t.sharedFiles = (Given.ofSignals told).sharedFiles.getD []
  sources : t.sources = (Given.ofSignals told).sources.getD []

/-- The two lists of the window are taken from the queues that have been told. -/
structure Kept (t : Tables) (told : List Signal) : Prop where
  lastQueue : ∀ d ∈ t.screen.window.lastQueue, Listed told d
  retained : ∀ r ∈ t.screen.window.retainedCompleted, Finished told r

variable {t : Tables} {told : List Signal}

/-- A signal that leaves the lists alone keeps them. -/
theorem Kept.concat {t' : Tables} (h : t.Kept told) (signal : Signal)
    (hscreen : t'.screen = t.screen) : t'.Kept (told ++ [signal]) where
  lastQueue d hd := (h.lastQueue d (hscreen ▸ hd)).concat signal
  retained r hr := (h.retained r (hscreen ▸ hr)).concat signal

theorem Kept.receive (h : t.Kept told) (signal : Signal) :
    (t.receive signal).Kept (told ++ [signal]) := by
  cases signal with
  | downloadsUpdated queue =>
    refine ⟨fun d hd => listed_concat hd, fun r hr => ?_⟩
    rcases MainWindow.mem_retained_onDownloadsUpdated hr with hold | ⟨d, ⟨hfin, -, hd⟩, rfl⟩
    · exact (h.retained r hold).concat _
    · -- what is retained now is in the new queue or was in the one before
      refine ⟨d, ?_, hfin, rfl⟩
      rcases hd with hd | ⟨hd, -⟩
      · exact listed_concat hd
      · exact (h.lastQueue d hd).concat _
  | statusChanged status detail =>
    cases status with
    | disconnected => exact ⟨List.forall_mem_nil _, List.forall_mem_nil _⟩
    | connecting | connected | error => exact h.concat _ rfl
  | _ => exact h.concat _ rfl

/-- A signal that changes neither the rows nor the queue given last keeps what is shown. -/
theorem Shows.downloads_concat (h : t.Shows told) {t' : Tables} (signal : Signal)
    (hmodel : t'.screen.model = t.screen.model)
    (hgiven : ((Given.ofSignals told).receive signal).downloads =
      (Given.ofSignals told).downloads) :
    ∃ retained, t'.screen.model.downloads =
        (Given.ofSignals (told ++ [signal])).downloads.getD [] ++ retained ∧
      ∀ r ∈ retained, Finished (told ++ [signal]) r ∧
        inList ((Given.ofSignals (told ++ [signal])).downloads.getD []) r = false := by
  obtain ⟨retained, hrows, hretained⟩ := h.downloads
  rw [Given.ofSignals_concat, hgiven, hmodel]
  exact ⟨retained, hrows, fun r hr => ⟨(hretained r hr).1.concat signal, (hretained r hr).2⟩⟩

theorem Shows.receive (h : t.Shows told) (hkept : t.Kept told) (signal : Signal) :
    (t.receive signal).Shows (told ++ [signal]) := by
  have hgiven := Given.ofSignals_concat told signal
  have honline := ofSignals_online_concat told signal
  cases signal with
  | downloadsUpdated queue =>
    refine ⟨honline ▸ h.statsLabel, honline ▸ h.netLabel, ?_, hgiven ▸ h.servers,
      hgiven ▸ h.sharedFiles, hgiven ▸ h.sources⟩
    rw [hgiven]
    refine ⟨_, DownloadTableModel.downloads_setDownloads _ _, fun r hr => ?_⟩
    have hretained := (hkept.receive (.downloadsUpdated queue)).retained r (List.mem_filter.mp hr).1
    have hnew : inList queue r = false := by simpa using (List.mem_filter.mp hr).2
    exact ⟨hretained, hnew⟩
  | statusChanged status detail =>
    -- the rows stay, whatever the status
    cases status with
    | connected =>
      exact ⟨honline ▸ h.statsLabel, honline ▸ h.netLabel, h.downloads_concat _ rfl rfl,
        hgiven ▸ h.servers, hgiven ▸ h.sharedFiles, hgiven ▸ h.sources⟩
    | disconnected | connecting | error =>
      exact ⟨honline ▸ rfl, honline ▸ rfl, h.downloads_concat _ rfl rfl, hgiven ▸ h.servers,
        hgiven ▸ h.sharedFiles, hgiven ▸ h.sources⟩
  | statsUpdated stats =>
    exact ⟨honline ▸ rfl, honline ▸ h.netLabel, h.downloads_concat _ rfl rfl, hgiven ▸ h.servers,
      hgiven ▸ h.sharedFiles, hgiven ▸ h.sources⟩
  | connStateUpdated conn =>
    exact ⟨honline ▸ h.statsLabel, honline ▸ rfl, h.downloads_concat _ rfl rfl,
      hgiven ▸ h.servers, hgiven ▸ h.sharedFiles, hgiven ▸ h.sources⟩
  | serversUpdated servers =>
    exact ⟨honline ▸ h.statsLabel, honline ▸ h.netLabel, h.downloads_concat _ rfl rfl,
      hgiven ▸ rfl, hgiven ▸ h.sharedFiles, hgiven ▸ h.sources⟩
  | sharedFilesUpdated files =>
    exact ⟨honline ▸ h.statsLabel, honline ▸ h.netLabel, h.downloads_concat _ rfl rfl,
      hgiven ▸ h.servers, hgiven ▸ rfl, hgiven ▸ h.sources⟩
  | sourcesUpdated sources =>
    exact ⟨honline ▸ h.statsLabel, honline ▸ h.netLabel, h.downloads_concat _ rfl rfl,
      hgiven ▸ h.servers, hgiven ▸ h.sharedFiles, hgiven ▸ rfl⟩
  | _ =>
    exact ⟨honline ▸ h.statsLabel, honline ▸ h.netLabel, h.downloads_concat _ rfl rfl,
      hgiven ▸ h.servers, hgiven ▸ h.sharedFiles, hgiven ▸ h.sources⟩

end Tables

namespace System

variable [Qt]

/-- The messages that a step takes from the worker. -/
def takes (s : System) : Action → List Message
  | .delivered => s.signals.take 1
  | _ => []

/-- The messages that the window takes in a run. -/
def taken : System → List Action → List Message
  | _, [] => []
  | s, act :: acts => s.takes act ++ (s.step act).taken acts

/-- What the window is told in a run. -/
def told (acts : List Action) : List Signal := (taken {} acts).map Message.signal

/-- The tables after a run. -/
def tables (acts : List Action) : Tables := (told acts).foldl Tables.receive {}

omit [Qt] in
theorem signal_message (search : ℕ) (events : List Event) :
    (events.filterMap (Event.message search)).map Message.signal = emitted events := by
  rw [List.map_filterMap, emitted]
  congr
  funext ev
  cases ev <;> rfl

/-- A call puts what it emits behind what waits. -/
theorem call_signals (s : System) (c : Call) : ∃ events,
    (s.call c).session.trace = s.session.trace ++ events ∧
    (s.call c).signals.map Message.signal = s.signals.map Message.signal ++ emitted events := by
  obtain ⟨events, heffect⟩ := s.call_spec c
  refine ⟨events, heffect.trace, ?_⟩
  rw [heffect.signals, List.map_append, signal_message]

/-- What the user does leaves the worker and its signals as they are. -/
theorem step_kept (s : System) {act : Action} (hdelivered : act ≠ .delivered)
    (hrun : ∀ network, act ≠ .run network) (hfired : ∀ network, act ≠ .timerFired network) :
    (s.step act).session = s.session ∧ (s.step act).signals = s.signals := by
  have hsteps := s.steps act
  generalize s.step act = s' at hsteps
  cases hsteps with
  | delivered hsignals => exact absurd rfl hdelivered
  | ran hcommands => exact absurd rfl (hrun _)
  | fired network => exact absurd rfl (hfired _)
  | @closed index search stops hclose s' hs' =>
    subst hs'
    cases stops <;> exact ⟨rfl, rfl⟩
  | _ => exact ⟨rfl, rfl⟩

/-- What a step emits waits behind what waited before, of which it may take the first. -/
theorem step_signals (s : System) (act : Action) : ∃ events,
    (s.step act).session.trace = s.session.trace ++ events ∧
    (s.takes act ++ (s.step act).signals).map Message.signal =
      s.signals.map Message.signal ++ emitted events := by
  have hkept (htakes : s.takes act ++ (s.step act).signals = s.signals)
      (hsession : (s.step act).session = s.session) : ∃ events,
      (s.step act).session.trace = s.session.trace ++ events ∧
      (s.takes act ++ (s.step act).signals).map Message.signal =
        s.signals.map Message.signal ++ emitted events :=
    ⟨[], hsession ▸ (List.append_nil _).symm, htakes ▸ (List.append_nil _).symm⟩
  have huser := @step_kept _ s act
  cases act with
  | delivered =>
    have htaken : s.takes .delivered ++ (s.step .delivered).signals = s.signals ∧
        (s.step .delivered).session = s.session := by
      rw [takes, step]
      split
      · next hsignals => exact ⟨by rw [hsignals]; rfl, rfl⟩
      · next m signals hsignals => exact ⟨by rw [hsignals]; rfl, rfl⟩
    exact hkept htaken.1 htaken.2
  | run network =>
    simp only [step]
    split
    · exact ⟨[], (List.append_nil _).symm, (List.append_nil _).symm⟩
    · exact call_signals _ _
  | timerFired network => exact s.call_signals _
  | _ =>
    obtain ⟨hsession, hsignals⟩ := huser (by simp) (by simp) (by simp)
    exact hkept hsignals hsession

end System

end Amule
