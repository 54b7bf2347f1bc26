import AmuleRemote.Ec.WorkerRules

/-!
# The outcome of a refresh

A refresh is six exchanges, or eight while a search is on. With all its answers it
keeps the connection, and a search that is on is told of its progress. Otherwise
the first exchange to fail ends it, and the connection with it.

## Main results

- `EcWorker.onRefresh_outcome` — a refresh has all its answers or loses the
  connection
-/

namespace Amule

open Ec Std.Do

set_option mvcgen.warning false

/-! ## What an exchange shows -/

/-- The progress that a reply reports. -/
def progressOf (resp : Packet) : UInt32 := ((resp.tagInt TagName.searchStatus).getD 0).toUInt32

/-- The progress that the reply to a request for it reports. -/
def Event.progress : Event → Option UInt32
  | .exchange _ request (.ok reply) =>
    if request.opcode = Op.searchProgress then some (progressOf reply) else none
  | _ => none

/-- An exchange that failed with a transport error. -/
def Event.Io : Event → Prop
  | .exchange _ _ (.error e) => e.kind = .io
  | _ => False

instance : DecidablePred Event.Io
  | .exchange _ _ (.error e) => inferInstanceAs (Decidable (e.kind = .io))
  | .exchange _ _ (.ok _) => isFalse id
  | .emit _ _ => isFalse id

/-! ## The exchanges of a refresh -/

/-- How many exchanges a refresh has. -/
def refreshLength (searching : Bool) : ℕ := if searching then 8 else 6

/-- The exchanges of a refresh are all answered. -/
def Network.Answers (n : Network) (searching : Bool) : Prop :=
  ∀ k < refreshLength searching, ∃ reply, n.replies k = .ok reply

/-- The first exchange of a refresh to fail fails with `e`. -/
def Network.FailsFirst (n : Network) (searching : Bool) (e : EcError) : Prop :=
  ∃ k < refreshLength searching, n.replies k = .error e ∧
    ∀ j < k, ∃ reply, n.replies j = .ok reply

theorem Network.FailsFirst.unique {n : Network} {searching : Bool} {e e' : EcError}
    (h : n.FailsFirst searching e) (h' : n.FailsFirst searching e') : e = e' := by
  obtain ⟨k, -, hfail, hbefore⟩ := h
  obtain ⟨k', -, hfail', hbefore'⟩ := h'
  rcases Nat.lt_trichotomy k k' with hlt | heq | hgt
  · obtain ⟨reply, hreply⟩ := hbefore' k hlt
    exact absurd (hfail.symm.trans hreply) nofun
  · rw [heq] at hfail
    exact Except.error.inj (hfail.symm.trans hfail')
  · obtain ⟨reply, hreply⟩ := hbefore k' hgt
    exact absurd (hfail'.symm.trans hreply) nofun

/-- `w` is `v` after `k` answered exchanges of a refresh, the progress read among them. -/
structure Midway (v : World) (k : ℕ) (reads : List UInt32) (w : World) : Prop where
  answered : ∀ j < k, ∃ reply, v.network.replies j = .ok reply
  replies : ∀ j, w.network.replies j = v.network.replies (j + k)
  now : w.network.now = v.network.now
  trace : ∃ events, w.trace = v.trace ++ events ∧ (∀ ev ∈ events, ¬ev.Io) ∧
    events.filterMap Event.progress = reads
  worker : ∃ sources, w.worker = { v.worker with sourceClients := sources }

/-- `w` is `v` after a refresh that an exchange has ended. -/
structure Interrupted (v : World) (e : EcError) (w : World) : Prop where
  first : v.network.FailsFirst v.worker.searching e
  trace : ∃ events, w.trace = v.trace ++ events ∧ ((∃ ev ∈ events, ev.Io) ↔ e.kind = .io)

/-- The world whose search has reported `progress`. -/
def World.noted (w : World) (progress : UInt32) : World :=
  if 100 ≤ progress then
    if !w.worker.at100 then
      w.setWorker { w.worker with at100 := true, at100Timer := w.network.now }
    else if EcWorker.searchGraceMs ≤ w.network.now - w.worker.at100Timer then
      (w.setWorker { w.worker with searching := false, at100 := false }).emitted
        (.searchingChanged false)
    else w
  else w.setWorker { w.worker with at100 := false }

/-- What a refresh of `v` makes of it. -/
inductive Outcome (v : World) : World → Prop
  | idle {w : World} (off : v.worker.searching = false) (midway : Midway v 6 [] w) : Outcome v w
  | polled {w : World} {reply : Packet} (on : v.worker.searching = true)
      (reported : v.network.replies 6 = .ok reply)
      (midway : Midway v 8 [progressOf reply] w) : Outcome v (w.noted (progressOf reply))
  | lost {w : World} {e : EcError} (interrupted : Interrupted v e w) :
      Outcome v (w.tornDown e.message .error)

section

variable {v w : World} {k : ℕ} {reads : List UInt32}

theorem Midway.start (v : World) : Midway v 0 [] v where
  answered _ hj := absurd hj (Nat.not_lt_zero _)
  replies _ := rfl
  now := rfl
  trace := ⟨[], (List.append_nil _).symm, by simp, rfl⟩
  worker := ⟨_, rfl⟩

theorem Midway.searching (h : Midway v k reads w) :
    w.worker.searching = v.worker.searching := by
  obtain ⟨_, hworker⟩ := h.worker
  rw [hworker]

theorem Midway.emitted (h : Midway v k reads w) (s : Signal) : Midway v k reads (w.emitted s) where
  answered := h.answered
  replies := h.replies
  now := h.now
  trace := by
    obtain ⟨events, htrace, hquiet, hreads⟩ := h.trace
    refine ⟨events ++ [.emit w.worker.client s], by simp [htrace], ?_, ?_⟩
    · exact List.forall_mem_append.mpr ⟨hquiet, List.forall_mem_singleton.mpr id⟩
    · rw [List.filterMap_append, hreads]
      exact List.append_nil reads
  worker := h.worker

theorem Midway.setSources (h : Midway v k reads w) (sources : SourceMap) :
    Midway v k reads (w.setWorker { w.worker with sourceClients := sources }) where
  answered := h.answered
  replies := h.replies
  now := h.now
  trace := h.trace
  worker := by
    obtain ⟨_, hworker⟩ := h.worker
    exact ⟨sources, by rw [World.worker_setWorker, hworker]⟩

theorem Midway.exchanged (h : Midway v k reads w) (client : EcClient) {request reply : Packet}
    (hreply : w.network.replies 0 = .ok reply) {new : List UInt32}
    (hnew : (Event.exchange client request (.ok reply)).progress.toList = new) :
    Midway v (k + 1) (reads ++ new) (w.exchanged client request) where
  answered j hj := by
    cases Nat.lt_succ_iff_lt_or_eq.mp hj with
    | inl hlt => exact h.answered j hlt
    | inr heq =>
      refine ⟨reply, ?_⟩
      rw [heq, ← hreply, h.replies, Nat.zero_add]
  replies j := by
    rw [World.network_exchanged, Network.replies_next, h.replies, Nat.add_right_comm, Nat.add_assoc]
  now := h.now
  trace := by
    obtain ⟨events, htrace, hquiet, hreads⟩ := h.trace
    refine ⟨events ++ [.exchange client request (.ok reply)], ?_, ?_, ?_⟩
    · rw [World.trace_exchanged, htrace, hreply, List.append_assoc]
    · exact List.forall_mem_append.mpr ⟨hquiet, List.forall_mem_singleton.mpr id⟩
    · rw [List.filterMap_append, hreads, ← hnew]
      refine congrArg (reads ++ ·) ?_
      cases hprogress : (Event.exchange client request (.ok reply)).progress with
      | none => simp [hprogress]
      | some progress => simp [hprogress]
  worker := h.worker

/-- An answer that reports no progress. -/
theorem Midway.quiet (h : Midway v k reads w) (client : EcClient) {request reply : Packet}
    (hreply : w.network.replies 0 = .ok reply) (hop : request.opcode ≠ Op.searchProgress) :
    Midway v (k + 1) reads (w.exchanged client request) := by
  have hnew : (Event.exchange client request (.ok reply)).progress.toList = [] :=
    congrArg Option.toList (if_neg hop)
  rw [← List.append_nil reads]
  exact h.exchanged client hreply hnew

theorem Midway.interrupted (h : Midway v k reads w) (hk : k < refreshLength v.worker.searching)
    (client : EcClient) (request : Packet) {e : EcError}
    (hfail : w.network.replies 0 = .error e) : Interrupted v e (w.exchanged client request) where
  first := by
    refine ⟨k, hk, ?_, h.answered⟩
    rw [← hfail, h.replies, Nat.zero_add]
  trace := by
    obtain ⟨events, htrace, hquiet, -⟩ := h.trace
    refine ⟨events ++ [.exchange client request (.error e)], ?_, ?_⟩
    · rw [World.trace_exchanged, htrace, hfail, List.append_assoc]
    · constructor
      · rintro ⟨ev, hev, hio⟩
        cases List.mem_append.mp hev with
        | inl hev => exact absurd hio (hquiet ev hev)
        | inr hev =>
          rw [List.mem_singleton.mp hev] at hio
          exact hio
      · exact fun hio => ⟨_, List.mem_append_right _ List.mem_cons_self, hio⟩

theorem World.client_noted (w : World) (progress : UInt32) :
    (w.noted progress).worker.client = w.worker.client := by
  rw [World.noted]
  split_ifs <;> rfl

/-- At most the end of the search is announced. -/
theorem World.trace_noted (w : World) (progress : UInt32) :
    ∃ signals : List Signal,
      (w.noted progress).trace = w.trace ++ signals.map (.emit w.worker.client) := by
  rw [World.noted]
  split_ifs with hdone hat hgrace
  · exact ⟨[], (List.append_nil _).symm⟩
  · exact ⟨[.searchingChanged false], rfl⟩
  · exact ⟨[], (List.append_nil _).symm⟩
  · exact ⟨[], (List.append_nil _).symm⟩

theorem Midway.noted (h : Midway v k reads w) (progress : UInt32) :
    ∃ events, (w.noted progress).trace = v.trace ++ events ∧ (∀ ev ∈ events, ¬ev.Io) ∧
      events.filterMap Event.progress = reads := by
  obtain ⟨signals, hsignals⟩ := w.trace_noted progress
  obtain ⟨events, htrace, hquiet, hreads⟩ := h.trace
  refine ⟨events ++ signals.map (.emit w.worker.client), ?_, ?_, ?_⟩
  · rw [hsignals, htrace, List.append_assoc]
  · refine List.forall_mem_append.mpr ⟨hquiet, fun ev hev => ?_⟩
    obtain ⟨s, -, rfl⟩ := List.mem_map.mp hev
    exact id
  · have hnone : (signals.map (Event.emit w.worker.client)).filterMap Event.progress = [] := by
      simp [List.filterMap_eq_nil_iff, Event.progress]
    rw [List.filterMap_append, hreads, hnone, List.append_nil]

theorem Interrupted.emitted {e : EcError} (h : Interrupted v e w) (s : Signal) :
    Interrupted v e (w.emitted s) where
  first := h.first
  trace := by
    obtain ⟨events, htrace, hio⟩ := h.trace
    refine ⟨events ++ [.emit w.worker.client s], by simp [htrace], ?_⟩
    rw [← hio]
    simp [or_and_right, exists_or, Event.Io]

end

section

variable (v : World) (k : ℕ) (reads : List UInt32) (hk : k < refreshLength v.worker.searching)
include hk

/-- A query of a refresh that reads the reply, and no progress. -/
theorem read_midway (client : EcClient) (request : Packet)
    (hop : request.opcode ≠ Op.searchProgress) {α : Type} (read : Packet → α) :
    ⦃fun w => ⌜Midway v k reads w⌝⦄ (do let resp ← client.exchange request; pure (read resp))
    ⦃post⟨fun _ w => ⌜Midway v (k + 1) reads w⌝, fun e w => ⌜Interrupted v e w⌝⟩⦄ := by
  mvcgen [EcClient.exchange]
  next w hw reply hreply => exact hw.quiet client hreply hop
  next w hw e hfail => exact hw.interrupted hk client request hfail

/-- The progress is that of the reply. -/
theorem fetchSearchProgress_midway (client : EcClient) :
    ⦃fun w => ⌜Midway v k reads w⌝⦄ fetchSearchProgress client
    ⦃post⟨fun progress w => ⌜Midway v (k + 1) (reads ++ [progress]) w ∧
        ∃ reply, v.network.replies k = .ok reply ∧ progress = progressOf reply⌝,
      fun e w => ⌜Interrupted v e w⌝⟩⦄ := by
  mvcgen [fetchSearchProgress, EcClient.request, EcClient.exchange]
  next w hw reply hreply =>
    refine ⟨hw.exchanged client hreply rfl, reply, ?_, rfl⟩
    rw [← hreply, hw.replies, Nat.zero_add]
  next w hw e hfail => exact hw.interrupted hk client _ hfail

theorem fetchClientUpdate_midway (client : EcClient) :
    ⦃fun w => ⌜Midway v k reads w⌝⦄ fetchClientUpdate client
    ⦃post⟨fun _ w => ⌜Midway v (k + 1) reads w⌝, fun e w => ⌜Interrupted v e w⌝⟩⦄ := by
  mvcgen [fetchClientUpdate, EcClient.exchange, modifyWorker]
  next w hw reply hreply _ =>
    have hop : updateRequest.opcode ≠ Op.searchProgress := by decide
    exact (hw.quiet client hreply hop).setSources _
  next w hw e hfail => exact hw.interrupted hk client _ hfail

end

/-- A query takes a refresh from `k` answers to the next. -/
abbrev Advances (v : World) (k : ℕ) {α : Type} (query : EcM α) : Prop :=
  ⦃fun w => ⌜Midway v k [] w⌝⦄ query
  ⦃post⟨fun _ w => ⌜Midway v (k + 1) [] w⌝, fun e w => ⌜Interrupted v e w⌝⟩⦄

namespace EcWorker

theorem noteProgress_run (progress : UInt32) (w : World) :
    ⦃fun v => ⌜v = w⌝⦄ noteProgress progress ⦃⇓ _ v => ⌜v = w.noted progress⌝⦄ := by
  mvcgen [noteProgress, emit, modifyWorker]
  all_goals subst_vars
  next w hdone hat _ => rw [World.noted, if_pos hdone, if_pos hat]
  next w hdone hat hgrace _ _ => rw [World.noted, if_pos hdone, if_neg hat, if_pos hgrace]
  next w hdone hat hgrace => rw [World.noted, if_pos hdone, if_neg hat, if_neg hgrace]
  next w hdone _ => rw [World.noted, if_neg hdone]

/-- The search part of a refresh. -/
theorem refreshSearch_outcome {v : World} (client : EcClient) (hon : v.worker.searching = true) :
    ⦃fun w => ⌜Midway v 6 [] w⌝⦄ refreshSearch client
    ⦃post⟨fun _ w => ⌜Outcome v w⌝, fun e w => ⌜Interrupted v e w⌝⟩⦄ := by
  have hlength : refreshLength v.worker.searching = 8 := by rw [hon]; rfl
  have hprogress := fetchSearchProgress_midway v 6 [] (by omega)
  have hresults (progress : UInt32) (client : EcClient) :
      ⦃fun w => ⌜Midway v 7 [progress] w⌝⦄ fetchSearchResults client
      ⦃post⟨fun _ w => ⌜Midway v 8 [progress] w⌝, fun e w => ⌜Interrupted v e w⌝⟩⦄ :=
    read_midway v 7 [progress] (by omega) client _ (show Op.searchResults ≠ _ by decide) _
  have hnote := noteProgress_run
  mvcgen [refreshSearch, emit, hprogress, hresults, hnote]
  next hread => exact hread.1
  next w _ progress _ hread _ w' hw _ _ _ _ =>
    obtain ⟨-, reply, hreply, rfl⟩ := hread
    rintro rfl
    exact .polled hon hreply ((hw.emitted _).emitted _)

theorem refresh_outcome (v : World) (client : EcClient) :
    ⦃fun w => ⌜w = v⌝⦄ refresh client
    ⦃post⟨fun _ w => ⌜Outcome v w⌝, fun e w => ⌜Interrupted v e w⌝⟩⦄ := by
  have hlength : 6 ≤ refreshLength v.worker.searching := by
    cases v.worker.searching <;> decide
  have hstats (client : EcClient) : Advances v 0 (fetchStats client) :=
    read_midway v 0 [] (by omega) client _ (by decide) _
  have hdownloads (client : EcClient) : Advances v 1 (fetchDownloads client) :=
    read_midway v 1 [] (by omega) client _ (by decide) _
  have hconn (client : EcClient) : Advances v 2 (fetchConnState client) :=
    read_midway v 2 [] (by omega) client _ (by decide) _
  have hservers (client : EcClient) : Advances v 3 (fetchServers client) :=
    read_midway v 3 [] (by omega) client _ (by decide) _
  have hshared (client : EcClient) : Advances v 4 (fetchSharedFiles client) :=
    read_midway v 4 [] (by omega) client _ (by decide) _
  have hupdate := fetchClientUpdate_midway v 5 [] (by omega)
  have hsearch (client : EcClient) := refreshSearch_outcome (v := v) client
  have hsnapshot {w : World} {stats downloads conn servers files sources}
      (hw : Midway v 6 [] w) : Midway v 6 []
        ((((((w.emitted (.statsUpdated stats)).emitted (.downloadsUpdated downloads)).emitted
          (.connStateUpdated conn)).emitted (.serversUpdated servers)).emitted
          (.sharedFilesUpdated files)).emitted (.sourcesUpdated sources)) :=
    (((((hw.emitted _).emitted _).emitted _).emitted _).emitted _).emitted _
  mvcgen [refresh, emit, hstats, hdownloads, hconn, hservers, hshared, hupdate, hsearch]
  next w hw =>
    subst hw
    exact .start w
  next w hw _ _ _ _ _ _ hon => exact hw.searching.symm.trans hon
  next w hw _ _ _ _ _ _ hon => exact hsnapshot hw
  next w hw _ _ _ _ _ _ hoff =>
    have hidle : v.worker.searching = false := hw.searching.symm.trans (Bool.eq_false_iff.mpr hoff)
    exact .idle hidle (hsnapshot hw)

/-- A refresh with a connection has all its answers, or loses the connection. -/
theorem onRefresh_outcome {v : World} (hheld : v.worker.client ≠ none) :
    Outcome v (onRefresh.run v).2 := by
  have hrefresh := refresh_outcome v
  have hrun : ⦃fun w => ⌜w = v⌝⦄ onRefresh ⦃⇓ _ w => ⌜Outcome v w⌝⦄ := by
    mvcgen [onRefresh, getClient, emit, teardown_eq, hrefresh]
    next w hw hnone =>
      subst hw
      exact absurd hnone hheld
    next w hw _ _ => exact .lost (hw.emitted _)
  exact hrun v rfl

end EcWorker

end Amule
