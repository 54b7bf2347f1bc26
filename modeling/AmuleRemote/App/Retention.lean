import AmuleRemote.Lib.Run
import AmuleRemote.App.Downloads

/-!
# Finished downloads stay on the screen

A download that some snapshot reported as finished is shown after every later
snapshot, until it is cleared or deleted or the session ends. Downloads are told
apart by their hash, or failing that by their EC id.

The match takes either key, so a daemon that hands out an EC id again makes two
downloads with different hashes match: the one in the queue hides the retained
one, and the retained one keeps the other from being retained.
-/

namespace Amule

def hashes (list : List Download) : List Hash16 := list.map fun d => d.hash

theorem mem_hashes {list : List Download} {hash : Hash16} :
    hash ∈ hashes list ↔ ∃ d ∈ list, d.hash = hash := List.mem_map

theorem sameDownload_symm {a b : Download} (h : sameDownload a b = true) :
    sameDownload b a = true := by
  rw [sameDownload_iff] at h ⊢
  rcases h with ⟨hne, heq⟩ | ⟨hne, heq⟩
  · exact .inl ⟨heq ▸ hne, heq.symm⟩
  · exact .inr ⟨heq ▸ hne, heq.symm⟩

theorem sameDownload_comm (a b : Download) : sameDownload a b = sameDownload b a :=
  Bool.eq_iff_iff.mpr ⟨sameDownload_symm, sameDownload_symm⟩

/-- Downloads with different hashes match by their EC id alone. -/
theorem ecid_eq_of_sameDownload {a b : Download} (h : sameDownload a b = true)
    (hhash : a.hash ≠ b.hash) : a.ecid ≠ 0 ∧ a.ecid = b.ecid := by
  rcases sameDownload_iff.mp h with ⟨-, heq⟩ | hecid
  · exact absurd heq hhash
  · exact hecid

/-- What a download does not match in a list, no member of the list matches. -/
theorem not_sameDownload_of_inList {list : List Download} {d x : Download}
    (h : inList list d = false) (hx : x ∈ list) : sameDownload d x = false := by
  rw [sameDownload_comm]
  by_contra hsame
  have hin : inList list d = true := inList_iff.mpr ⟨x, hx, eq_true_of_ne_false hsame⟩
  rw [h] at hin
  exact Bool.noConfusion hin

/-- A snapshot of downloads with a hash each and an EC id of their own. -/
structure Identified (queue : List Download) : Prop where
  hash : ∀ d ∈ queue, d.hash ≠ Octets.zero 16
  ecid : (queue.map fun d => d.ecid).Nodup

theorem Identified.hash_eq {queue : List Download} (h : Identified queue) {d x : Download}
    (hd : d ∈ queue) (hx : x ∈ queue) (hecid : d.ecid = x.ecid) : d.hash = x.hash := by
  have heq : d = x := List.inj_on_of_nodup_map h.ecid hd hx hecid
  rw [heq]

namespace MainWindow

/-- Every snapshot of the action is identified. -/
def Action.Identified : Action → Prop
  | .downloadsUpdated queue => Amule.Identified queue
  | _ => True

/-- The window, and the hashes of the downloads that are to stay on the screen. -/
structure Watched where
  window : MainWindow := {}
  promised : List Hash16 := []

namespace Watched

def step (s : Watched) (act : Action) : Watched where
  window := s.window.step act
  promised :=
    match act with
    | .downloadsUpdated queue => s.promised ++ hashes (queue.filter isFinished)
    | .clearCompleted => []
    | .deleteDownloads hashes => s.promised.filter fun hash => hash ∉ hashes
    | .statusChanged .disconnected => []
    | .statusChanged _ => s.promised

/-- After a snapshot everything promised is on the screen. -/
def Displays (s : Watched) : Action → Prop
  | .downloadsUpdated queue =>
    (s.step (.downloadsUpdated queue)).promised ⊆
      hashes (s.step (.downloadsUpdated queue)).window.shown
  | _ => True

/-- Where a snapshot gives a retained download's EC id to another hash, the retained one is
    still in the snapshot if it was promised, and the other one is retained if it finished. -/
def NoClash (s : Watched) : Action → Prop
  | .downloadsUpdated queue =>
    ∀ r ∈ s.window.retainedCompleted, ∀ x ∈ queue,
      r.ecid ≠ 0 → r.ecid = x.ecid → r.hash ≠ x.hash →
        (r.hash ∈ s.promised → r.hash ∈ hashes queue) ∧
        (isFinished x = true → x.hash ∈ hashes s.window.retainedCompleted)
  | _ => True

/-- Everything promised is retained. -/
def Covered (s : Watched) : Prop := s.promised ⊆ hashes s.window.retainedCompleted

section snapshot

variable {s : Watched} {queue : List Download}

/-- A finished download of a snapshot is retained under its own hash. -/
theorem retained_of_finished (hqueue : Amule.Identified queue)
    (hclash : s.NoClash (.downloadsUpdated queue)) {x : Download} (hx : x ∈ queue)
    (hfin : isFinished x = true) :
    x.hash ∈ hashes (s.window.onDownloadsUpdated queue).retainedCompleted := by
  have hcovers : asCompleted x ∈ (s.window.onDownloadsUpdated queue).retainedCompleted ∨
      ∃ r ∈ (s.window.onDownloadsUpdated queue).retainedCompleted, sameDownload r x = true :=
    retain_covers hx rfl hfin
  rcases hcovers with hkept | ⟨r, hr, hsame⟩
  · exact mem_hashes.mpr ⟨asCompleted x, hkept, rfl⟩
  by_cases hhash : r.hash = x.hash
  · exact mem_hashes.mpr ⟨r, hr, hhash⟩
  -- something else took its place: it was there before, or came from one of the two loops
  have hecid := ecid_eq_of_sameDownload hsame hhash
  rcases mem_retained_onDownloadsUpdated hr with hold | ⟨d, ⟨-, -, hd | ⟨-, hdropped⟩⟩, rfl⟩
  · have hmem := (hclash r hold x hx hecid.1 hecid.2 hhash).2 hfin
    obtain ⟨r', hr', heq⟩ := mem_hashes.mp hmem
    exact mem_hashes.mpr ⟨r', subset_retained_onDownloadsUpdated _ _ hr', heq⟩
  · exact absurd (hqueue.hash_eq hd hx hecid.2) hhash
  · have hne := not_sameDownload_of_inList hdropped hx
    rw [sameDownload_asCompleted, hne] at hsame
    exact Bool.noConfusion hsame

theorem covered_snapshot (hqueue : Amule.Identified queue)
    (hclash : s.NoClash (.downloadsUpdated queue)) (hs : s.Covered) :
    (s.step (.downloadsUpdated queue)).Covered := by
  intro hash hmem
  cases List.mem_append.mp hmem with
  | inl hold =>
    obtain ⟨r, hr, heq⟩ := mem_hashes.mp (hs hold)
    exact mem_hashes.mpr ⟨r, subset_retained_onDownloadsUpdated _ _ hr, heq⟩
  | inr hnew =>
    obtain ⟨x, hx, rfl⟩ := mem_hashes.mp hnew
    obtain ⟨hx, hfin⟩ := List.mem_filter.mp hx
    exact retained_of_finished hqueue hclash hx hfin

/-- A promised download that is retained is shown, itself or the one in the queue. -/
theorem displays_snapshot (hqueue : Amule.Identified queue)
    (hclash : s.NoClash (.downloadsUpdated queue)) (hs : s.Covered) :
    s.Displays (.downloadsUpdated queue) := by
  intro hash hmem
  have hshown : hash ∈ hashes queue →
      hash ∈ hashes (s.window.onDownloadsUpdated queue).shown := by
    intro h
    obtain ⟨x, hx, heq⟩ := mem_hashes.mp h
    exact mem_hashes.mpr ⟨x, mem_shown_onDownloadsUpdated.mpr (.inl hx), heq⟩
  obtain ⟨r, hr, rfl⟩ := mem_hashes.mp (covered_snapshot hqueue hclash hs hmem)
  by_cases hin : inList queue r = true
  · -- left out of the view: it is in the queue, or another download hides it
    refine hshown ?_
    obtain ⟨x, hx, hsame⟩ := inList_iff.mp hin
    by_cases hhash : x.hash = r.hash
    · exact mem_hashes.mpr ⟨x, hx, hhash⟩
    have hecid := ecid_eq_of_sameDownload hsame hhash
    cases List.mem_append.mp hmem with
    | inl hpromised =>
      rcases mem_retained_onDownloadsUpdated hr with hold | ⟨d, ⟨-, -, hd | ⟨-, hdropped⟩⟩, rfl⟩
      · exact (hclash r hold x hx (hecid.2 ▸ hecid.1) hecid.2.symm (Ne.symm hhash)).1 hpromised
      · exact mem_hashes.mpr ⟨d, hd, rfl⟩
      · have hne := not_sameDownload_of_inList hdropped hx
        rw [sameDownload_comm, sameDownload_asCompleted, hne] at hsame
        exact Bool.noConfusion hsame
    | inr hnew =>
      -- promised by this very snapshot, so the queue holds it
      obtain ⟨d, hd, heq⟩ := mem_hashes.mp hnew
      exact mem_hashes.mpr ⟨d, (List.mem_filter.mp hd).1, heq⟩
  · have hin : inList queue r = false := eq_false_of_ne_true hin
    exact mem_hashes.mpr ⟨r, mem_shown_onDownloadsUpdated.mpr (.inr ⟨hr, hin⟩), rfl⟩

end snapshot

theorem covered_step (s : Watched) (act : Action) (hs : s.Covered)
    (h : act.Identified ∧ s.NoClash act) : (s.step act).Covered ∧ s.Displays act := by
  cases act with
  | downloadsUpdated queue =>
    exact ⟨covered_snapshot h.1 h.2 hs, displays_snapshot h.1 h.2 hs⟩
  | clearCompleted => exact ⟨fun hash hmem => absurd hmem List.not_mem_nil, trivial⟩
  | deleteDownloads deleted =>
    refine ⟨fun hash hmem => ?_, trivial⟩
    obtain ⟨hpromised, hkeep⟩ := List.mem_filter.mp hmem
    obtain ⟨r, hr, rfl⟩ := mem_hashes.mp (hs hpromised)
    have hkept : r ∈ (s.window.deleteDownloads deleted).retainedCompleted :=
      mem_retained_deleteDownloads.mpr ⟨hr, of_decide_eq_true hkeep⟩
    exact mem_hashes.mpr ⟨r, hkept, rfl⟩
  | statusChanged status =>
    refine ⟨?_, trivial⟩
    cases status with
    | disconnected => exact fun hash hmem => absurd hmem List.not_mem_nil
    | connecting | connected | error => exact hs

end Watched

/-- In every run of identified snapshots that never clash with a retained download, what was
    reported as finished is shown after every later snapshot. -/
theorem displays_of_noClash (acts : List Action) (hacts : ∀ act ∈ acts, act.Identified)
    (h : Run.Along Watched.step Watched.NoClash {} acts) :
    Run.Along Watched.step Watched.Displays {} acts :=
  Run.along_of_invariant Watched.covered_step (fun _ hmem => absurd hmem List.not_mem_nil)
    (h.and_forall hacts)

/-- The daemon drops a finished download and, after a lost connection, gives its EC id to
    another one. -/
def reusedEcid (ecid : UInt32) : List Action := [
  .downloadsUpdated [{ ecid := 1, hash := sampleHash 1, status := Ec.Status.complete }],
  .downloadsUpdated [],
  .statusChanged .error,
  .statusChanged .connected,
  .downloadsUpdated [{ ecid, hash := sampleHash 2 }]]

theorem reusedEcid_identified (ecid : UInt32) : ∀ act ∈ reusedEcid ecid, act.Identified := by
  have hone (d : Download) (hd : d.hash ≠ Octets.zero 16) : Amule.Identified [d] :=
    ⟨by simpa using hd, List.nodup_singleton _⟩
  have hnil : Amule.Identified [] := ⟨by simp, List.nodup_nil⟩
  simp only [reusedEcid, List.forall_mem_cons]
  have hfirst : sampleHash 1 ≠ Octets.zero 16 := by decide
  have hsecond : sampleHash 2 ≠ Octets.zero 16 := by decide
  exact ⟨hone _ hfirst, hnil, trivial, trivial, hone _ hsecond, by simp⟩

/-- The new owner of the EC id hides the finished download. -/
theorem hidden_by_reused_ecid : (∀ act ∈ reusedEcid 1, act.Identified) ∧
    ¬Run.Along Watched.step Watched.Displays {} (reusedEcid 1) := by
  refine ⟨reusedEcid_identified 1, fun h => ?_⟩
  have hdisplays := h.2.2.2.2.1
  exact absurd (hdisplays (by decide : sampleHash 1 ∈ _)) (by decide)

theorem displays_fresh_ecid : Run.Along Watched.step Watched.Displays {} (reusedEcid 2) := by
  refine displays_of_noClash _ (reusedEcid_identified 2) ⟨?_, ?_, trivial, trivial, ?_, trivial⟩
  · exact fun r hr => absurd hr List.not_mem_nil
  · exact fun r hr x hx => absurd hx List.not_mem_nil
  · intro r hr x hx hne heq
    rw [List.mem_singleton.mp hr, List.mem_singleton.mp hx] at heq
    exact absurd heq (by decide)

end MainWindow

end Amule
