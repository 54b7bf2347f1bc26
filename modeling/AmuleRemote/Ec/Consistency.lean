import AmuleRemote.Lib.Run
import AmuleRemote.Ec.Connecting

/-!
# The worker between two slots

The refresh timer runs while a connection is held, a worker without a connection
keeps no sources and no search, and who listens to `searchingChanged` knows
whether a search is on.

Within a slot this may fail for a moment: a connection is adopted before the
timer is started, and a search that ends is announced after the flag is cleared.
-/

namespace Amule

open Ec Std.Do

set_option mvcgen.warning false

/-- What an event says about the search. -/
def Event.searching : Event → Option Bool
  | .emit _ (.searchingChanged searching) => some searching
  | _ => none

/-- The last value of `searchingChanged`; no search is on before the first. -/
def lastSearching (trace : List Event) : Bool :=
  (trace.filterMap Event.searching).getLast?.getD false

theorem lastSearching_append (trace : List Event) (ev : Event) :
    lastSearching (trace ++ [ev]) = ev.searching.getD (lastSearching trace) := by
  cases hsearching : ev.searching with
  | none => simp [lastSearching, hsearching]
  | some searching => simp [lastSearching, hsearching]

theorem lastSearching_append_of_quiet {trace events : List Event}
    (h : ∀ ev ∈ events, ev.searching = none) :
    lastSearching (trace ++ events) = lastSearching trace := by
  have hquiet : events.filterMap Event.searching = [] := List.filterMap_eq_nil_iff.mpr h
  simp [lastSearching, hquiet]

/-- The worker and what it has told, between two slots. -/
structure Consistent (worker : EcWorker) (trace : List Event) : Prop where
  timer : worker.timerActive = true ↔ worker.client ≠ none
  idle : worker.client = none → worker.sourceClients = ∅ ∧ worker.searching = false
  told : lastSearching trace = worker.searching

def World.Consistent (w : World) : Prop := Amule.Consistent w.worker w.trace

namespace World

variable {w : World}

theorem Consistent.exchanged (h : w.Consistent) (client : EcClient) (request : Packet) :
    (w.exchanged client request).Consistent where
  timer := h.timer
  idle := h.idle
  told := (lastSearching_append _ _).trans h.told

theorem Consistent.emitted (h : w.Consistent) {s : Signal}
    (hs : ∀ searching, s ≠ .searchingChanged searching) : (w.emitted s).Consistent where
  timer := h.timer
  idle := h.idle
  told := by
    rw [trace_emitted, lastSearching_append]
    cases s with
    | searchingChanged searching => exact absurd rfl (hs searching)
    | _ => exact h.told

theorem Consistent.setWorker (h : w.Consistent) {worker : EcWorker}
    (htimer : worker.timerActive = w.worker.timerActive)
    (hclient : worker.client = w.worker.client)
    (hsearching : worker.searching = w.worker.searching)
    (hsources : worker.client = none → worker.sourceClients = ∅) :
    (w.setWorker worker).Consistent where
  timer := by
    rw [worker_setWorker, htimer, hclient]
    exact h.timer
  idle hnone := ⟨hsources hnone, hsearching.trans (h.idle (hclient.symm.trans hnone)).2⟩
  told := h.told.trans hsearching.symm

theorem Consistent.stopped (h : w.Consistent) : w.stopped.Consistent where
  timer := h.timer
  idle hnone := ⟨(h.idle hnone).1, rfl⟩
  told := lastSearching_append _ _

/-- The flag and its announcement go together, whatever comes in between. -/
theorem Consistent.started (h : w.Consistent) (hclient : w.worker.client ≠ none) :
    ((w.setWorker { w.worker with searching := true, at100 := false }).emitted
      (.searchingChanged true)).Consistent where
  timer := h.timer
  idle hnone := absurd hnone hclient
  told := lastSearching_append _ _

theorem Consistent.searches (h : w.Consistent) (hclient : w.worker.client ≠ none)
    (params : SearchParams) : (w.searches params).Consistent := by
  have hresults := (h.started hclient).emitted (s := .searchResultsUpdated []) (by simp)
  have hprogress := hresults.emitted (s := .searchProgressChanged 0) (by simp)
  exact hprogress.emitted (by simp)

theorem Consistent.tornDown (h : w.Consistent) (reason : QString) (status : ConnStatus) :
    (w.tornDown reason status).Consistent where
  timer := by simp
  idle _ := by simp
  told := by
    rw [trace_tornDown, searching_tornDown, lastSearching_append]
    by_cases hsearching : w.worker.searching = true
    · rw [if_pos hsearching, lastSearching_append]
      rfl
    · -- nothing is announced, as the last announcement still holds
      rw [if_neg hsearching, List.append_nil]
      exact h.told.trans (Bool.eq_false_iff.mpr hsearching)

end World

/-- Every slot is made of steps that are consistent. -/
theorem consistent_rules : Rules World.Consistent fun _ => World.Consistent where
  reply _ _ hheld := hheld.1.exchanged _ _
  fail _ _ hheld := hheld.1.exchanged _ _
  refuse hw := hw
  recover _ hw := hw
  log hw := hw.emitted (by simp)
  teardown hw := hw.tornDown _ _
  notice hw := hw.emitted (by simp)
  report {w client s} hs hheld := by
    refine hheld.1.emitted fun searching heq => ?_
    rw [heq] at hs
    exact hs
  prefs hheld _ := hheld.1.emitted (by simp)
  update {w client reply} _ hheld := by
    refine World.Consistent.setWorker (hheld.1.exchanged client updateRequest) rfl rfl rfl ?_
    intro hnone
    exact absurd (hheld.2.symm.trans hnone) nofun
  updateFail _ hheld := hheld.1.exchanged _ _
  pace hheld := hheld.1.setWorker rfl rfl rfl fun hnone => (hheld.1.idle hnone).1
  stop _ hw := hw.stopped
  stopReply _ _ hheld := hheld.1.exchanged _ _
  stopFail _ _ hheld := hheld.1.exchanged _ _

theorem consistent_starts (params : SearchParams) :
    Starts World.Consistent (fun _ => World.Consistent) params := by
  refine .of_sent (fun {w client} hheld => ?_) fun hw => hw.stopped
  have hclient : w.worker.client ≠ none := hheld.2 ▸ Option.some_ne_none client
  exact (hheld.1.searches hclient params).exchanged _ _

theorem consistent_whole : Whole World.Consistent where
  toRules := consistent_rules
  starts := consistent_starts
  write _ hheld := hheld.1.exchanged _ _
  disconnect hw := hw.tornDown _ _

/-! ## Connecting -/

theorem Event.Handshake.searching {id : ℕ} {ev : Event} (h : ev.Handshake id) :
    ev.searching = none := by
  cases ev with
  | exchange client request reply => rfl
  | emit client signal => exact h.elim

theorem Shaken.lastSearching {w₀ w : World} (h : Shaken w₀ w) :
    lastSearching w.trace = lastSearching w₀.trace := by
  obtain ⟨events, htrace, hevents⟩ := h
  rw [htrace]
  exact lastSearching_append_of_quiet fun ev hev => (hevents ev hev).searching

namespace World

variable {w w' : World}

theorem Consistent.connecting (h : w.Consistent) (host : QString) (port : UInt16) :
    (w.connecting host port).Consistent := by
  refine Consistent.emitted (Consistent.emitted ?_ (by simp)) (by simp)
  exact h.setWorker rfl rfl rfl fun _ => rfl

/-- The old connection, if any, stays as it is. -/
theorem Consistent.refused (h : w.Consistent) (hw : Refused w w') (hshaken : Shaken w w')
    (message : QString) : (w'.refused message).Consistent := by
  refine Consistent.emitted (Consistent.emitted ?_ (by simp)) (by simp)
  rw [World.Consistent, hw.worker]
  exact ⟨h.timer, h.idle, hshaken.lastSearching.trans h.told⟩

/-- The timer is started over the new connection, whatever became of the fetch. -/
theorem Consistent.settled (h : w.Consistent) {client : EcClient} (hw : Accepted w client w')
    (hshaken : Shaken w w') : ((w'.adopted client).settled client).Consistent := by
  obtain ⟨events, htrace, hevents⟩ := trace_settled (w'.adopted client) client
  have hquiet : ∀ ev ∈ events, ev.searching = none := by
    intro ev hev
    obtain ⟨prefs, rfl⟩ := hevents ev hev
    rfl
  have htold : lastSearching ((w'.adopted client).settled client).trace =
      lastSearching w'.trace := by
    rw [htrace, List.append_cons, lastSearching_append_of_quiet hquiet, lastSearching_append]
    simp only [World.adopted, trace_emitted, lastSearching_append]
    rfl
  constructor
  · rw [worker_settled]
    exact iff_of_true rfl (Option.some_ne_none client)
  · rw [worker_settled]
    exact fun hnone => absurd hnone (Option.some_ne_none client)
  · have hsearching : w.worker.searching = w'.worker.searching := by rw [hw.worker]
    rw [worker_settled, htold, hshaken.lastSearching]
    exact h.told.trans hsearching

end World

/-! ## Runs -/

/-- One slot call; a shutdown forgets the search without a word. -/
theorem consistent_call [Qt] {w : World} {slot : Slot} (hw : w.Consistent)
    (hslot : slot ≠ .shutdown) : (slot.call.run w).2.Consistent := by
  cases slot with
  | connectToDaemon host port password =>
    have hconnecting := hw.connecting host port
    have hcall := EcWorker.connectToDaemon_spec consistent_rules host port password
      (fun haccepted hshaken => hconnecting.settled haccepted hshaken)
    rcases hcall with hconsistent | ⟨w', message, hrefused, hshaken, heq⟩
    · exact hconsistent
    · exact heq ▸ hconnecting.refused hrefused hshaken message
  | shutdown => exact absurd rfl hslot
  | _ =>
    refine Keeps.run ?_ hw
    exact consistent_whole.keeps trivial

/-- In a run without a shutdown the worker is consistent between any two slots. -/
theorem consistent_of_no_shutdown [Qt] (calls : List Call)
    (h : ∀ c ∈ calls, c.slot ≠ .shutdown) :
    Run.Always Session.step (fun s => Consistent s.worker s.trace) {} calls := by
  refine Run.always_of_invariant ?_ ?_ (Run.along_of_forall h)
  · intro s c hs hc
    exact consistent_call (w := s.world c.network) hs hc
  · exact ⟨iff_of_false nofun (fun hclient => hclient rfl), fun _ => ⟨rfl, rfl⟩, rfl⟩

/-- A search that ends with the connection: the daemon is gone at the second exchange of
    its first refresh. -/
def lostSearch : List Call := [
  ⟨.connectToDaemon (.lit "localhost") 4712 [], .friendly⟩,
  ⟨.startSearch { text := .lit "ubuntu" }, {
    replies := fun n => if n = 2 then .error ⟨.io, .lit "connection reset"⟩ else
      .ok ⟨Op.noop, []⟩ }⟩]

theorem consistent_lostSearch :
    Run.Always (@Session.step sampleQt) (fun s => Consistent s.worker s.trace) {} lostSearch := by
  refine @consistent_of_no_shutdown sampleQt lostSearch ?_
  intro c hc
  simp only [lostSearch, List.mem_cons, List.not_mem_nil, or_false] at hc
  rcases hc with rfl | rfl
  · exact nofun
  · exact nofun

end Amule
