import AmuleRemote.Ec.Refreshing
import AmuleRemote.Lib.Run

/-!
# A search ends by itself after its grace period

A refresh ends a search that is done, once the grace period is over. The flag and
the timer that the worker keeps for this outlive the search they were set for. What
ends a search is nevertheless a matter of its own progress: the replies read since
it was started, and when they were read.

A run is watched: next to the session stands the list of these replies, taken from
the trace.

## Main results

- `Watched.endsByItself_iff` — a call ends the search by itself if and only if its
  refresh meets no error and the replies end in twelve seconds at 100
- `not_endsByItself_iff` — this is not said by the replies alone
-/

namespace Amule

open Ec

/-- A session, with the progress replies read since a search was last started and when. -/
structure Watched where
  session : Session := {}
  reads : List (ℕ × UInt32) := []

/-- Since when a history of replies reports 100 or more without a break. -/
def doneSince (reads : List (ℕ × UInt32)) : Option ℕ :=
  (reads.rtakeWhile fun read => 100 ≤ read.2).head?.map Prod.fst

/-- The progress replies that a call reads. -/
def Session.newReads [Qt] (s : Session) (c : Call) : List (ℕ × UInt32) :=
  ((s.events c).filterMap Event.progress).map fun progress => (c.network.now, progress)

/-- The history starts anew with the calls that `starts` says. -/
def Watched.step [Qt] (starts : Session → Call → Bool) (x : Watched) (c : Call) : Watched where
  session := x.session.step c
  reads := (if starts x.session c then [] else x.reads) ++ x.session.newReads c

/-- The call starts a search: it is not ignored. -/
def Session.starts (s : Session) (c : Call) : Bool :=
  c.slot.startsSearch && s.worker.client.isSome

/-- The refresh of the call finds the search on and leaves it off, and the connection is not
    lost. -/
def Session.EndsByItself [Qt] (s : Session) (c : Call) : Prop :=
  (c.slot.refreshes s.worker c.network).map Prod.fst = some true ∧
    (s.step c).worker.searching = false ∧ (s.step c).worker.client ≠ none

/-- The call reads a reply, and with it the replies have reported 100 or more for twelve
    seconds without a break. -/
def Watched.GraceOver [Qt] (starts : Session → Call → Bool) (x : Watched) (c : Call) : Prop :=
  x.session.newReads c ≠ [] ∧
    ∃ first ∈ doneSince (x.step starts c).reads, first + 12000 ≤ c.network.now

/-- The call refreshes, and every exchange of the refresh is answered. -/
def Session.Answered (s : Session) (c : Call) : Prop :=
  ∃ r ∈ c.slot.refreshes s.worker c.network, r.2.Answers r.1

theorem doneSince_concat (reads : List (ℕ × UInt32)) (now : ℕ) (progress : UInt32) :
    doneSince (reads ++ [(now, progress)]) =
      if 100 ≤ progress then some ((doneSince reads).getD now) else none := by
  rw [doneSince]
  split
  · rename_i h
    rw [List.rtakeWhile_concat_pos _ _ _ (by simpa using h), List.head?_append, doneSince]
    cases (reads.rtakeWhile fun read => 100 ≤ read.2).head? with
    | none => rfl
    | some first => rfl
  · rename_i h
    rw [List.rtakeWhile_concat_neg _ _ _ (by simpa using h)]
    rfl

/-! ## The timer and the replies -/

/-- While a search is on, the worker times what its replies say. -/
def Watched.Timed (x : Watched) : Prop :=
  x.session.worker.searching = true → x.session.worker.graceStart = doneSince x.reads

/-- A report of progress: the flag and the timer follow the replies, and the search goes on
    unless they have reported 100 for long enough. -/
theorem World.graceStart_noted {w : World} {reads : List (ℕ × UInt32)} (progress : UInt32)
    (hon : w.worker.searching = true) (htimed : w.worker.graceStart = doneSince reads) :
    ((w.noted progress).worker.searching = false ↔
      ∃ first ∈ doneSince (reads ++ [(w.network.now, progress)]),
        first + 12000 ≤ w.network.now) ∧
    ((w.noted progress).worker.searching = true → (w.noted progress).worker.graceStart =
      doneSince (reads ++ [(w.network.now, progress)])) := by
  rw [doneSince_concat, ← htimed]
  by_cases hdone : 100 ≤ progress
  · simp only [if_pos hdone, Option.mem_some_iff, exists_eq_left']
    cases hat : w.worker.at100 with
    | false =>
      -- the first such reply starts the timer
      have hstart : w.worker.graceStart = none := by rw [EcWorker.graceStart, hat]; rfl
      have hnoted : (w.noted progress).worker =
          { w.worker with at100 := true, at100Timer := w.network.now } := by
        rw [World.noted, if_pos hdone, hat]
        rfl
      rw [hnoted, hstart]
      refine ⟨iff_of_false ?_ ?_, fun _ => rfl⟩
      · rw [hon]
        exact Bool.true_eq_false_eq_False
      · rw [Option.getD_none]
        omega
    | true =>
      have hstart : w.worker.graceStart = some w.worker.at100Timer := by
        rw [EcWorker.graceStart, hat]
        rfl
      rw [hstart, Option.getD_some]
      by_cases hgrace : EcWorker.searchGraceMs ≤ w.network.now - w.worker.at100Timer
      · have hoff : (w.noted progress).worker.searching = false := by
          rw [World.noted, if_pos hdone, hat, if_neg (by decide), if_pos hgrace]
          rfl
        rw [EcWorker.searchGraceMs] at hgrace
        refine ⟨iff_of_true hoff (by omega), fun h => absurd (hoff.symm.trans h) Bool.false_ne_true⟩
      · have hsame : w.noted progress = w := by
          rw [World.noted, if_pos hdone, hat, if_neg (by decide), if_neg hgrace]
        rw [EcWorker.searchGraceMs] at hgrace
        rw [hsame, hstart]
        refine ⟨iff_of_false ?_ (by omega), fun _ => rfl⟩
        rw [hon]
        exact Bool.true_eq_false_eq_False
  · have hnoted : (w.noted progress).worker = { w.worker with at100 := false } := by
      rw [World.noted, if_neg hdone]
      rfl
    rw [hnoted, if_neg hdone]
    refine ⟨iff_of_false ?_ ?_, fun _ => rfl⟩
    · rw [hon]
      exact Bool.true_eq_false_eq_False
    · rintro ⟨first, hfirst, -⟩
      exact Option.not_mem_none first hfirst

/-! ## One call -/

theorem Session.newReads_eq [Qt] {s : Session} {c : Call} {events : List Event}
    (h : (s.step c).trace = s.trace ++ events) : s.newReads c =
      (events.filterMap Event.progress).map fun progress => (c.network.now, progress) := by
  rw [Session.newReads, Session.events_eq h]

theorem Session.starts_iff {s : Session} {c : Call} :
    s.starts c = true ↔ c.slot.Begins s.worker := by
  rw [Session.starts, Bool.and_eq_true, Option.isSome_iff_ne_none]
  rfl

/-- What the slot does before its refresh is in step with the history. -/
theorem LedTo.graceStart {x : Watched} {c : Call} {v : World}
    (hled : LedTo c.slot (x.session.world c.network) v) (hx : x.Timed)
    (hon : v.worker.searching = true) : v.worker.graceStart =
      doneSince (if x.session.starts c then [] else x.reads) := by
  split
  · rename_i hstarts
    rw [EcWorker.graceStart, hled.begun (Session.starts_iff.mp hstarts) hon]
    rfl
  · rename_i hstarts
    obtain ⟨hwas, hgrace⟩ := hled.kept (hstarts ∘ Session.starts_iff.mpr) hon
    exact hgrace.trans (hx hwas)

/-- A call whose refresh ends in the world `w` after the refreshed `v`. -/
theorem LedTo.newReads [Qt] {s : Session} {c : Call} {v w : World} {reads : List UInt32}
    (hled : LedTo c.slot (s.world c.network) v) (hw : s.step c = w.session)
    (htrace : ∃ events, w.trace = v.trace ++ events ∧ events.filterMap Event.progress = reads) :
    s.newReads c = reads.map fun progress => (c.network.now, progress) := by
  obtain ⟨before, hbefore, hquiet⟩ := hled.trace
  obtain ⟨events, hevents, rfl⟩ := htrace
  have hall : (s.step c).trace = s.trace ++ (before ++ events) := by
    rw [hw, ← List.append_assoc]
    exact hevents.trans (congrArg (· ++ events) hbefore)
  have hnone : before.filterMap Event.progress = [] := List.filterMap_eq_nil_iff.mpr hquiet
  rw [Session.newReads_eq hall, List.filterMap_append, hnone, List.nil_append]

/-- What a call does to a session that is watched. -/
structure Watched.Law [Qt] (x : Watched) (c : Call) : Prop where
  timed : (x.step Session.starts c).Timed
  ends : x.session.EndsByItself c ↔ x.session.Answered c ∧ x.GraceOver Session.starts c

section

variable [Qt] {x : Watched} {c : Call} {v w : World}

/-- A call without a refresh, or without a search at its refresh. -/
theorem Watched.law_idle (hx : x.Timed)
    (hw : x.session.step c = w.session) (hreads : x.session.newReads c = [])
    (hled : LedTo c.slot (x.session.world c.network) w ∨ w.worker.searching = false)
    (hrefreshes : (c.slot.refreshes x.session.worker c.network).map Prod.fst ≠ some true) :
    x.Law c := by
  constructor
  · intro hon
    have hon' : w.worker.searching = true := by
      rw [← hon, Watched.step, hw]
      rfl
    rcases hled with hled | hoff
    · have hgrace := hled.graceStart hx hon'
      rw [Watched.step, hw, hreads, List.append_nil]
      exact hgrace
    · exact absurd (hoff.symm.trans hon') nofun
  · exact iff_of_false (fun h => hrefreshes h.1) fun h => h.2.1 hreads

/-- A call whose refresh polls the search, with all its answers. -/
theorem Watched.law_polled {progress : UInt32}
    (hx : x.Timed) (hled : LedTo c.slot (x.session.world c.network) v)
    (hheld : v.worker.client ≠ none) (hnow : v.network.now = c.network.now)
    (hrefreshes : c.slot.refreshes x.session.worker c.network =
      some (v.worker.searching, v.network))
    (hon : v.worker.searching = true) (hmidway : Midway v 8 [progress] w)
    (hw : x.session.step c = (w.noted progress).session)
    (hreads : x.session.newReads c = [(c.network.now, progress)]) : x.Law c := by
  obtain ⟨sources, hworker⟩ := hmidway.worker
  have htime : w.network.now = c.network.now := hmidway.now.trans hnow
  have hon' : w.worker.searching = true := hmidway.searching.trans hon
  have hgrace : w.worker.graceStart = v.worker.graceStart := by
    rw [hworker]
    rfl
  obtain ⟨hends, hgoes⟩ :=
    World.graceStart_noted progress hon' (hgrace.trans (hled.graceStart hx hon))
  have hhistory : (x.step Session.starts c).reads =
      (if x.session.starts c then [] else x.reads) ++ [(w.network.now, progress)] := by
    rw [Watched.step, hreads, htime]
  have hclient : (w.noted progress).worker.client = v.worker.client := by
    rw [World.client_noted, hworker]
  constructor
  · intro hsearching
    rw [hhistory]
    rw [Watched.step, hw] at hsearching ⊢
    exact hgoes hsearching
  · have hfirst : (c.slot.refreshes x.session.worker c.network).map Prod.fst = some true := by
      rw [hrefreshes, Option.map_some, hon]
    have hanswered : x.session.Answered c := by
      refine ⟨_, hrefreshes, ?_⟩
      rw [Network.Answers, hon]
      exact hmidway.answered
    have hnew : x.session.newReads c ≠ [] := by
      rw [hreads]
      exact List.cons_ne_nil _ _
    rw [Session.EndsByItself, Watched.GraceOver, hw, hhistory, ← htime]
    constructor
    · rintro ⟨-, hoff, -⟩
      exact ⟨hanswered, hnew, hends.mp hoff⟩
    · rintro ⟨-, -, hover⟩
      exact ⟨hfirst, hends.mpr hover, fun hnone => hheld (hclient.symm.trans hnone)⟩

/-- A call whose refresh loses the connection. -/
theorem Watched.law_lost {e : EcError} {reason : QString}
    (hrefreshes : c.slot.refreshes x.session.worker c.network =
      some (v.worker.searching, v.network)) (hlost : Interrupted v e w)
    (hw : x.session.step c = (w.tornDown reason .error).session) : x.Law c := by
  constructor
  · intro hon
    rw [Watched.step, hw] at hon
    exact absurd ((World.searching_tornDown w reason .error).symm.trans hon) nofun
  · refine iff_of_false ?_ ?_
    · rintro ⟨-, -, hheld⟩
      rw [hw] at hheld
      exact hheld (World.client_tornDown w reason .error)
    · rintro ⟨⟨r, hr, hanswers⟩, -⟩
      obtain ⟨k, hk, hfail, -⟩ := hlost.first
      rw [hrefreshes] at hr
      obtain rfl := Option.some.inj hr
      obtain ⟨reply, hreply⟩ := hanswers k hk
      exact absurd (hfail.symm.trans hreply) nofun

theorem Watched.law (hx : x.Timed) (c : Call) : x.Law c := by
  obtain ⟨after, hstep, hends⟩ := x.session.step_ends c
  cases hends with
  | ended hrefreshes hled _ =>
    refine law_idle hx hstep ?_ (.inl hled) ?_
    · exact hled.newReads hstep ⟨[], (List.append_nil _).symm, rfl⟩
    · exact (congrArg (Option.map Prod.fst) hrefreshes).trans_ne nofun
  | refreshed hled hheld hnow hrefreshes hclean =>
    rename_i v
    have houtcome := EcWorker.onRefresh_outcome hheld
    generalize (EcWorker.onRefresh.run v).2 = w at hstep houtcome
    cases houtcome with
    | idle off midway =>
      obtain ⟨events, htrace, -, hreads⟩ := midway.trace
      refine law_idle hx hstep (hled.newReads hstep ⟨events, htrace, hreads⟩)
        (.inr (midway.searching.trans off)) ?_
      rw [show c.slot.refreshes x.session.worker c.network = _ from hrefreshes, off]
      exact nofun
    | polled on _ midway =>
      obtain ⟨events, htrace, -, hreads⟩ := midway.noted _
      exact law_polled hx hled hheld hnow hrefreshes on midway hstep
        (hled.newReads hstep ⟨events, htrace, hreads⟩)
    | lost interrupted => exact law_lost hrefreshes interrupted hstep

end

/-! ## Runs -/

theorem Watched.timed_start : (({} : Watched)).Timed := fun hon => absurd hon nofun

/-- Throughout a run, a call ends the search by itself if and only if its refresh meets no
    error and the replies read since the search was started end, with one read by this call,
    in twelve seconds at 100. -/
theorem Watched.endsByItself_iff [Qt] (calls : List Call) :
    Run.Along (Watched.step Session.starts)
      (fun x c => x.session.EndsByItself c ↔
        x.session.Answered c ∧ x.GraceOver Session.starts c) {} calls := by
  have hstep (x : Watched) (c : Call) (hx : x.Timed) (_ : True) :=
    And.intro (Watched.law hx c).timed (Watched.law hx c).ends
  exact Run.along_of_invariant hstep timed_start (Run.along_of_forall fun _ _ => trivial)

/-- A daemon whose reply `k` says that the search is done, with `next` to follow. -/
def progressAt (k : ℕ) (next : Except EcError Packet) : ℕ → Except EcError Packet := fun j =>
  if j = k then .ok ⟨Op.searchProgress, [.integer TagName.searchStatus 100]⟩
  else if j = k + 1 then next
  else .ok ⟨Op.authOk, []⟩

/-- A search is at 100 for twelve seconds, and its results cannot be read. -/
def unreadResults : List Call := [
  ⟨.connectToDaemon (.lit "localhost") 4712 [], .friendly⟩,
  ⟨.startSearch { text := .lit "ubuntu" }, ⟨.ok (), progressAt 7 (.ok ⟨Op.authOk, []⟩), 0⟩⟩,
  ⟨.timeout, ⟨.ok (), progressAt 6 (.error ⟨.io, .lit "timed out"⟩), 12000⟩⟩]

/-- A search survives a shutdown, and a start that is ignored. -/
def ignoredStart : List Call := [
  ⟨.connectToDaemon (.lit "localhost") 4712 [], .friendly⟩,
  ⟨.startSearch { text := .lit "ubuntu" }, ⟨.ok (), progressAt 7 (.ok ⟨Op.authOk, []⟩), 0⟩⟩,
  ⟨.shutdown, .friendly⟩,
  ⟨.startSearch { text := .lit "debian" }, .friendly⟩,
  ⟨.connectToDaemon (.lit "localhost") 4712 [],
    ⟨.ok (), progressAt 8 (.ok ⟨Op.authOk, []⟩), 12000⟩⟩]

instance [Qt] (s : Session) (c : Call) : Decidable (s.EndsByItself c) :=
  inferInstanceAs (Decidable (_ ∧ _ ∧ _))

instance [Qt] (starts : Session → Call → Bool) (x : Watched) (c : Call) :
    Decidable (x.GraceOver starts c) :=
  inferInstanceAs (Decidable (_ ∧ _))

/-- The replies alone do not decide: their refresh may fail, and a call that is ignored starts
    no search. -/
theorem Watched.not_endsByItself_iff :
    let starts (_ : Session) (c : Call) : Bool := c.slot.startsSearch
    ¬Run.Along (@Watched.step sampleQt starts)
      (fun x c => @Session.EndsByItself sampleQt x.session c ↔
        @Watched.GraceOver sampleQt starts x c) {} unreadResults ∧
    ¬Run.Along (@Watched.step sampleQt starts)
      (fun x c => @Session.EndsByItself sampleQt x.session c ↔
        @Watched.GraceOver sampleQt starts x c) {} ignoredStart := by
  decide +kernel

end Amule
