import AmuleRemote.App.Snapshots

/-!
# What a retained download was when it was last seen

The window shows a download that is no longer in the queue as complete, so it
should have been finished in the last snapshot that had it. The window retains
a download as soon as a snapshot reports it as finished, and later snapshots do
not take it back: if the download is in the queue again unfinished, and then
leaves it, the row that was retained the first time is shown.
-/

namespace Amule

namespace MainWindow

/-- The downloads of the snapshot have a hash to tell them apart. -/
def Action.Hashed : Action → Prop
  | .downloadsUpdated queue => ∀ d ∈ queue, d.hash ≠ Octets.zero 16
  | act => act.InSession

theorem Action.Hashed.inSession {act : Action} (h : act.Hashed) : act.InSession := by
  cases act with
  | downloadsUpdated queue => trivial
  | clearCompleted | deleteDownloads hashes | statusChanged status => exact h

namespace Logged

def hasHash (hash : Hash16) (queue : List Download) : Bool := queue.any fun d => d.hash = hash

theorem hasHash_iff {hash : Hash16} {queue : List Download} :
    hasHash hash queue = true ↔ hash ∈ hashes queue := by
  simp [hasHash, mem_hashes]

/-- The most recent snapshot with the hash reports the download as finished. -/
def FinishedLast (s : Logged) (hash : Hash16) : Prop :=
  ∃ queue, s.snapshots.find? (hasHash hash) = some queue ∧
    ∃ d ∈ queue, d.hash = hash ∧ isFinished d = true

/-- What is shown besides the queue was finished when it was last seen. -/
def Honest (s : Logged) : Prop :=
  ∀ r ∈ s.window.shown, r ∉ s.window.lastQueue → s.FinishedLast r.hash

/-- A retained download that the last snapshot reported as unfinished is still in the queue. -/
def Stays (s : Logged) : Action → Prop
  | .downloadsUpdated queue =>
    ∀ d ∈ s.window.lastQueue, isFinished d = false →
      d.hash ∈ hashes s.window.retainedCompleted → d.hash ∈ hashes queue
  | _ => True

instance decidableFinishedLast (s : Logged) (hash : Hash16) : Decidable (s.FinishedLast hash) :=
  decidable_of_iff (∃ queue ∈ s.snapshots.find? (hasHash hash),
    ∃ d ∈ queue, d.hash = hash ∧ isFinished d = true) Iff.rfl

instance decidableHonest (s : Logged) : Decidable s.Honest :=
  inferInstanceAs (Decidable (∀ r ∈ s.window.shown, r ∉ s.window.lastQueue →
    s.FinishedLast r.hash))

theorem finishedLast_latest {s : Logged} {queue : List Download} {d : Download}
    (hd : d ∈ queue) (hfin : isFinished d = true) :
    FinishedLast { s with snapshots := queue :: s.snapshots } d.hash := by
  refine ⟨queue, List.find?_cons_of_pos ?_, d, hd, rfl, hfin⟩
  exact hasHash_iff.mpr (mem_hashes.mpr ⟨d, hd, rfl⟩)

/-- A snapshot without the hash does not change when the download was last seen. -/
theorem FinishedLast.skip {s : Logged} {hash : Hash16} (h : s.FinishedLast hash)
    {act : Action} (hact : ∀ queue, act = .downloadsUpdated queue → hash ∉ hashes queue) :
    (s.step act).FinishedLast hash := by
  obtain ⟨queue, hfind, hd⟩ := h
  refine ⟨queue, ?_, hd⟩
  cases act with
  | downloadsUpdated latest =>
    have hnot : ¬hasHash hash latest = true := hasHash_iff.not.mpr (hact latest rfl)
    show (latest :: s.snapshots).find? (hasHash hash) = some queue
    rw [List.find?_cons_of_neg hnot]
    exact hfind
  | clearCompleted | deleteDownloads deleted | statusChanged status => exact hfind

/-- A hash of the latest snapshot was last seen in it. -/
theorem finishedLast_of_mem {s : Logged} {d : Download} (hd : d ∈ s.latest)
    (hfin : isFinished d = true) : s.FinishedLast d.hash := by
  obtain ⟨window, snapshots⟩ := s
  cases snapshots with
  | nil => exact absurd hd List.not_mem_nil
  | cons queue older =>
    exact finishedLast_latest (s := ⟨window, older⟩) hd hfin

/-- The retained downloads that the latest snapshot does not have were finished when they
    were last seen. -/
structure Tracked (s : Logged) : Prop where
  synced : s.Synced
  hashed : ∀ d ∈ s.window.lastQueue, d.hash ≠ Octets.zero 16
  retained : ∀ r ∈ s.window.retainedCompleted, r.hash ∉ hashes s.window.lastQueue →
    s.FinishedLast r.hash

/-- A shown download that is not in the queue is a retained one, and its hash is not in the
    queue either. -/
theorem Tracked.honest {s : Logged} (hs : s.Tracked) : s.Honest := by
  intro r hr hnot
  rw [hs.synced.shown, merge] at hr
  cases List.mem_append.mp hr with
  | inl hqueue => exact absurd hqueue hnot
  | inr hretained =>
    obtain ⟨hretained, hin⟩ := List.mem_filter.mp hretained
    refine hs.retained r hretained fun hmem => ?_
    obtain ⟨x, hx, hhash⟩ := mem_hashes.mp hmem
    have hsame : sameDownload x r = true := sameDownload_iff.mpr (.inl ⟨hs.hashed x hx, hhash⟩)
    have hlisted : inList s.window.lastQueue r = true := inList_iff.mpr ⟨x, hx, hsame⟩
    rw [hlisted] at hin
    exact Bool.noConfusion hin

/-- What a snapshot leaves retained outside the queue was finished when it was last seen: it
    was retained before, or the queue has just dropped it. -/
theorem tracked_snapshot {s : Logged} {queue : List Download} (hs : s.Tracked)
    (hstays : s.Stays (.downloadsUpdated queue)) :
    ∀ r ∈ (s.window.onDownloadsUpdated queue).retainedCompleted, r.hash ∉ hashes queue →
      (s.step (.downloadsUpdated queue)).FinishedLast r.hash := by
  intro r hr hnot
  have hskip (h : s.FinishedLast r.hash) : (s.step (.downloadsUpdated queue)).FinishedLast r.hash :=
    h.skip fun latest heq => by cases heq; exact hnot
  rcases mem_retained_onDownloadsUpdated hr with hold | ⟨d, ⟨hfin, -, hd | ⟨hd, -⟩⟩, rfl⟩
  · apply hskip
    by_cases hlast : r.hash ∈ hashes s.window.lastQueue
    · -- it was in the last snapshot, where it can only have been finished
      obtain ⟨d, hd, hhash⟩ := mem_hashes.mp hlast
      have hfin : isFinished d = true := by
        by_contra hunfinished
        refine hnot ?_
        rw [← hhash]
        refine hstays d hd (eq_false_of_ne_true hunfinished) ?_
        exact mem_hashes.mpr ⟨r, hold, hhash.symm⟩
      rw [← hhash]
      exact finishedLast_of_mem (hs.synced.lastQueue ▸ hd) hfin
    · exact hs.retained r hold hlast
  · exact absurd (mem_hashes.mpr ⟨d, hd, rfl⟩) hnot
  · have hlatest : d ∈ s.latest := hs.synced.lastQueue ▸ hd
    have hlast : s.FinishedLast d.hash := finishedLast_of_mem hlatest hfin
    exact hskip hlast

theorem tracked_step (s : Logged) (act : Action) (hs : s.Tracked)
    (hact : act.Hashed ∧ s.Stays act) : (s.step act).Tracked := by
  have hsynced : (s.step act).Synced := synced_step hs.synced hact.1.inSession
  cases act with
  | downloadsUpdated queue => exact ⟨hsynced, hact.1, tracked_snapshot hs hact.2⟩
  | clearCompleted =>
    exact ⟨hsynced, hs.hashed, fun r hr => absurd hr List.not_mem_nil⟩
  | deleteDownloads deleted =>
    refine ⟨hsynced, hs.hashed, fun r hr hnot => ?_⟩
    have hold : r ∈ s.window.retainedCompleted := (mem_retained_deleteDownloads.mp hr).1
    exact (hs.retained r hold hnot).skip fun queue heq => nomatch heq
  | statusChanged status =>
    cases status with
    | disconnected => exact hact.1.elim
    | connecting | connected | error => exact ⟨hsynced, hs.hashed, hs.retained⟩

/-- In every run in which a retained download does not leave the queue unfinished, what is
    shown as complete was finished when it was last seen. -/
theorem honest_of_stays (acts : List Action) (hacts : ∀ act ∈ acts, act.Hashed)
    (hstays : Run.Along step Stays {} acts) : Run.Always step Honest {} acts := by
  have hstart : ({} : Logged).Tracked :=
    ⟨⟨rfl, rfl⟩, fun d hd => absurd hd List.not_mem_nil, fun r hr => absurd hr List.not_mem_nil⟩
  refine Run.Always.mono (fun s => Tracked.honest) (Run.always_of_invariant tracked_step hstart ?_)
  exact hstays.and_forall hacts

/-- A download that is reported with the status, once it was reported as complete, and then
    leaves the queue. -/
def reported (status : UInt8) : List Action := [
  .downloadsUpdated [{ ecid := 7, hash := sampleHash 1, status := Ec.Status.complete }],
  .downloadsUpdated [{ ecid := 7, hash := sampleHash 1, status }],
  .downloadsUpdated []]

theorem reported_hashed (status : UInt8) : ∀ act ∈ reported status, act.Hashed := by
  have hone (status : UInt8) : Action.Hashed (.downloadsUpdated
      [{ ecid := 7, hash := sampleHash 1, status }]) := by
    intro d hd
    rw [List.mem_singleton.mp hd]
    show sampleHash 1 ≠ Octets.zero 16
    decide
  simp only [reported, List.forall_mem_cons]
  exact ⟨hone _, hone _, fun d hd => absurd hd List.not_mem_nil, by simp⟩

/-- The completion failed, and the download was removed unfinished. -/
theorem shown_after_failure : (∀ act ∈ reported Ec.Status.error, act.Hashed) ∧
    ¬Run.Always step Honest {} (reported Ec.Status.error) :=
  ⟨reported_hashed _, by decide⟩

theorem honest_after_completion : Run.Always step Honest {} (reported Ec.Status.complete) := by
  refine honest_of_stays _ (reported_hashed _) ⟨?_, ?_, ?_, trivial⟩
  · exact fun d hd => absurd hd List.not_mem_nil
  · intro d hd hunfinished
    rw [List.mem_singleton.mp hd] at hunfinished
    exact absurd hunfinished (by decide)
  · intro d hd hunfinished
    rw [List.mem_singleton.mp hd] at hunfinished
    exact absurd hunfinished (by decide)

end Logged

end MainWindow

end Amule
