import AmuleRemote.App.DownloadTable
import AmuleRemote.App.Retention

/-!
# A session of queue snapshots

The daemon's queue arrives as a snapshot every second, and the window merges
each one with the finished downloads it retains. Within a session the merged
list starts with the latest snapshot and lists no download twice, and neither
does the list of retained downloads, however often a snapshot is repeated.

`sameDownload` is symmetric but not transitive, so "no download twice" is said
of the pairs of a list.
-/

namespace Amule

/-- No two downloads of the list match. -/
def Apart (list : List Download) : Prop := list.Pairwise fun a b => sameDownload a b = false

/-- A snapshot that lists no download twice, and gives each of them a key to match by. -/
structure Separate (queue : List Download) : Prop where
  apart : Apart queue
  keyed : ∀ d ∈ queue, d.hash ≠ Octets.zero 16 ∨ d.ecid ≠ 0

theorem inList_eq_false_iff {list : List Download} {d : Download} :
    inList list d = false ↔ ∀ x ∈ list, sameDownload x d = false := by
  simp [inList]

/-- A download with a key matches itself. -/
theorem sameDownload_self {d : Download} (h : d.hash ≠ Octets.zero 16 ∨ d.ecid ≠ 0) :
    sameDownload d d = true :=
  sameDownload_iff.mpr (h.imp (fun hhash => ⟨hhash, rfl⟩) fun hecid => ⟨hecid, rfl⟩)

theorem Separate.inList {queue : List Download} (h : Separate queue) {d : Download}
    (hd : d ∈ queue) : inList queue d = true :=
  inList_iff.mpr ⟨d, hd, sameDownload_self (h.keyed d hd)⟩

theorem Apart.append {list list' : List Download} (h : Apart list) (h' : Apart list')
    (hcross : ∀ d ∈ list', Amule.inList list d = false) : Apart (list ++ list') :=
  List.pairwise_append.mpr
    ⟨h, h', fun x hx d hd => inList_eq_false_iff.mp (hcross d hd) x hx⟩

namespace MainWindow

section retain

variable {guard : Download → Bool} {retained list : List Download}

/-- A retention loop keeps nothing that matches what it has kept. -/
theorem apart_retain (h : Apart retained) : Apart (retain guard retained list) := by
  induction list generalizing retained with
  | nil => exact h
  | cons d list ih =>
    rw [retain_cons]
    apply ih
    by_cases hkeep : (guard d && isFinished d && !inList retained d) = true
    · rw [if_pos hkeep]
      simp only [Bool.and_eq_true, Bool.not_eq_true'] at hkeep
      refine h.append (List.pairwise_singleton _ _) fun x hx => ?_
      rw [List.mem_singleton.mp hx]
      exact hkeep.2
    · rw [if_neg hkeep]
      exact h

/-- A loop over downloads that fail the guard, have not finished or are kept does nothing. -/
theorem retain_eq_self (h : ∀ d ∈ list, guard d = true → isFinished d = true →
    inList retained d = true) : retain guard retained list = retained := by
  induction list with
  | nil => rfl
  | cons d list ih =>
    have hskip : ¬(guard d && isFinished d && !inList retained d) = true := by
      intro hkeep
      simp only [Bool.and_eq_true, Bool.not_eq_true'] at hkeep
      have hin := h d List.mem_cons_self hkeep.1.1 hkeep.1.2
      rw [hkeep.2] at hin
      exact Bool.noConfusion hin
    rw [retain_cons, if_neg hskip]
    exact ih fun x hx => h x (List.mem_cons_of_mem _ hx)

/-- What a loop has seen finished, it has kept. -/
theorem inList_retain {d : Download} (hd : d ∈ list) (hguard : guard d = true)
    (hfin : isFinished d = true) (hkey : d.hash ≠ Octets.zero 16 ∨ d.ecid ≠ 0) :
    inList (retain guard retained list) d = true := by
  have hcovers : asCompleted d ∈ retain guard retained list ∨
      ∃ r ∈ retain guard retained list, sameDownload r d = true := retain_covers hd hguard hfin
  rcases hcovers with hkept | ⟨r, hr, hsame⟩
  · refine inList_iff.mpr ⟨asCompleted d, hkept, ?_⟩
    rw [sameDownload_asCompleted]
    exact sameDownload_self hkey
  · exact inList_iff.mpr ⟨r, hr, hsame⟩

end retain

theorem apart_deleteDownloads {w : MainWindow} (h : Apart w.retainedCompleted)
    (hashes : List Hash16) : Apart (w.deleteDownloads hashes).retainedCompleted := by
  simp only [deleteDownloads, refreshDownloadView]
  generalize w.retainedCompleted = retained at h
  induction hashes generalizing retained with
  | nil => exact h
  | cons hash hashes ih => exact ih _ (h.filter _)

theorem apart_merge {w : MainWindow} (hqueue : Apart w.lastQueue)
    (hretained : Apart w.retainedCompleted) : Apart w.merge := by
  refine hqueue.append (hretained.filter _) fun d hd => ?_
  simpa using (List.mem_filter.mp hd).2

/-- A snapshot handled twice in a row is handled once. -/
theorem onDownloadsUpdated_again (w : MainWindow) {queue : List Download} (h : Separate queue) :
    (w.onDownloadsUpdated queue).onDownloadsUpdated queue = w.onDownloadsUpdated queue := by
  let retained := (w.onDownloadsUpdated queue).retainedCompleted
  -- nothing was dropped from the queue since, and what is finished in it is retained
  have hdropped : retain (fun prev => !inList queue prev) retained queue = retained := by
    apply retain_eq_self
    intro d hd hguard
    rw [h.inList hd] at hguard
    exact Bool.noConfusion hguard
  have hreported : retain (fun _ => true) retained queue = retained := by
    apply retain_eq_self
    intro d hd hguard hfin
    exact inList_retain hd hguard hfin (h.keyed d hd)
  have htwice : retain (fun _ => true) (retain (fun prev => !inList queue prev) retained queue)
      queue = retained := by
    rw [hdropped, hreported]
  show refreshDownloadView { w with
      retainedCompleted := retain (fun _ => true)
        (retain (fun prev => !inList queue prev) retained queue) queue
      lastQueue := queue } = refreshDownloadView { w with
        retainedCompleted := retained
        lastQueue := queue }
  rw [htwice]

/-- The session goes on. -/
def Action.InSession : Action → Prop
  | .statusChanged .disconnected => False
  | _ => True

/-- What a session allows, with snapshots that list no download twice. -/
def Action.Separate : Action → Prop
  | .downloadsUpdated queue => Amule.Separate queue
  | act => act.InSession

theorem Action.Separate.inSession {act : Action} (h : act.Separate) : act.InSession := by
  cases act with
  | downloadsUpdated queue => trivial
  | clearCompleted | deleteDownloads hashes | statusChanged status => exact h

/-- The window and the snapshots it was given, the latest first. -/
structure Logged where
  window : MainWindow := {}
  snapshots : List (List Download) := []

namespace Logged

def step (s : Logged) (act : Action) : Logged where
  window := s.window.step act
  snapshots :=
    match act with
    | .downloadsUpdated queue => queue :: s.snapshots
    | _ => s.snapshots

/-- The latest snapshot; there is nothing in the queue before the first. -/
def latest (s : Logged) : List Download := s.snapshots.headD []

/-- The window holds the latest snapshot and shows what its lists stand for. -/
structure Synced (s : Logged) : Prop where
  lastQueue : s.window.lastQueue = s.latest
  shown : s.window.shown = s.window.merge

theorem synced_step {s : Logged} {act : Action} (hs : s.Synced) (hact : act.InSession) :
    (s.step act).Synced := by
  cases act with
  | downloadsUpdated queue => exact ⟨rfl, rfl⟩
  | clearCompleted => exact ⟨hs.lastQueue, rfl⟩
  | deleteDownloads hashes => exact ⟨hs.lastQueue, rfl⟩
  | statusChanged status =>
    cases status with
    | disconnected => exact hact.elim
    | connecting | connected | error => exact ⟨hs.lastQueue, hs.shown⟩

/-- What is shown starts with the latest snapshot, nothing is listed twice, and a repeated
    snapshot changes nothing. -/
structure Distinct (s : Logged) : Prop where
  latest : s.latest <+: s.window.shown
  shown : Apart s.window.shown
  retained : Apart s.window.retainedCompleted
  again : ∀ queue, Amule.Separate queue →
    (s.window.onDownloadsUpdated queue).onDownloadsUpdated queue =
      s.window.onDownloadsUpdated queue

/-- What the window keeps of a run: the latest snapshot, and two lists that list nothing
    twice. -/
structure Tidy (s : Logged) : Prop where
  synced : s.Synced
  queue : Apart s.window.lastQueue
  retained : Apart s.window.retainedCompleted

theorem Tidy.distinct {s : Logged} (hs : s.Tidy) : s.Distinct where
  latest := by
    rw [hs.synced.shown, ← hs.synced.lastQueue]
    exact List.prefix_append _ _
  shown := by
    rw [hs.synced.shown]
    exact apart_merge hs.queue hs.retained
  retained := hs.retained
  again := fun _ hqueue => onDownloadsUpdated_again s.window hqueue

theorem tidy_step (s : Logged) (act : Action) (hs : s.Tidy) (hact : act.Separate) :
    (s.step act).Tidy := by
  have hsynced : (s.step act).Synced := synced_step hs.synced hact.inSession
  cases act with
  | downloadsUpdated queue =>
    exact ⟨hsynced, hact.apart, apart_retain (apart_retain hs.retained)⟩
  | clearCompleted => exact ⟨hsynced, hs.queue, List.Pairwise.nil⟩
  | deleteDownloads hashes => exact ⟨hsynced, hs.queue, apart_deleteDownloads hs.retained hashes⟩
  | statusChanged status =>
    cases status with
    | disconnected => exact hact.elim
    | connecting | connected | error => exact ⟨hsynced, hs.queue, hs.retained⟩

/-- In every run of a session with separate snapshots, no list of the window has a download
    twice. -/
theorem distinct_of_separate (acts : List Action) (hacts : ∀ act ∈ acts, act.Separate) :
    Run.Always step Distinct {} acts := by
  have hstart : ({} : Logged).Tidy := ⟨⟨rfl, rfl⟩, List.Pairwise.nil, List.Pairwise.nil⟩
  refine Run.Always.mono (fun s => Tidy.distinct) (Run.always_of_invariant tidy_step hstart ?_)
  exact Run.along_of_forall hacts

/-- A finished download, reported twice and then dropped, with another one in its place. -/
theorem distinct_finished_dropped : Run.Always step Distinct {} [
    .downloadsUpdated [{ ecid := 7, hash := sampleHash 1, status := Ec.Status.complete }],
    .downloadsUpdated [{ ecid := 7, hash := sampleHash 1, status := Ec.Status.complete }],
    .downloadsUpdated [{ ecid := 8, hash := sampleHash 2 }],
    .deleteDownloads [sampleHash 1]] := by
  have hone (d : Download) (hd : d.ecid ≠ 0) : Amule.Separate [d] :=
    ⟨List.pairwise_singleton _ _, by simp [hd]⟩
  apply distinct_of_separate
  simp only [List.forall_mem_cons]
  exact ⟨hone _ (by decide), hone _ (by decide), hone _ (by decide), trivial, by simp⟩

end Logged

end MainWindow

end Amule
