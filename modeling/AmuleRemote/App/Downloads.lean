import AmuleRemote.Model
import AmuleRemote.Ec.World

/-!
# The downloads the main window shows

The part of `mainwindow.cpp` that decides which downloads are displayed: the
last snapshot of the daemon's queue, and the finished downloads the daemon has
dropped from it, which stay on screen until the user clears them.

What is shown, what `setDownloads` was last given, is part of the state.
-/

namespace Amule

/-- The hash matches, or the EC id does. -/
def sameDownload (a b : Download) : Bool :=
  (a.hash ≠ Octets.zero 16 && a.hash = b.hash) || (a.ecid ≠ 0 && a.ecid = b.ecid)

def inList (list : List Download) (d : Download) : Bool := list.any fun x => sameDownload x d

def isFinished (d : Download) : Bool :=
  d.status = Ec.Status.complete || d.status = Ec.Status.completing ||
    (0 < d.sizeFull && d.sizeFull ≤ d.sizeDone)

def asCompleted (d : Download) : Download :=
  { d with
    status := Ec.Status.complete
    speed := 0
    sizeDone := if 0 < d.sizeFull then d.sizeFull else d.sizeDone }

structure MainWindow where
  lastQueue : List Download := []
  retainedCompleted : List Download := []
  /-- what the table model was last given -/
  shown : List Download := []

namespace MainWindow

/-- One retention loop: keep the finished downloads of a list that pass the guard and are
    not kept yet. -/
def retain (guard : Download → Bool) (retained list : List Download) : List Download :=
  list.foldl (fun retained d =>
    if guard d && isFinished d && !inList retained d then retained ++ [asCompleted d]
    else retained) retained

def refreshDownloadView (w : MainWindow) : MainWindow :=
  { w with shown := w.lastQueue ++ w.retainedCompleted.filter fun r => !inList w.lastQueue r }

def onDownloadsUpdated (w : MainWindow) (queue : List Download) : MainWindow :=
  -- what the daemon dropped while it was finished, then what is reported as finished now
  let retained := retain (fun prev => !inList queue prev) w.retainedCompleted w.lastQueue
  let retained := retain (fun _ => true) retained queue
  refreshDownloadView { w with retainedCompleted := retained, lastQueue := queue }

/-- The handler of the clear button. -/
def clearCompleted (w : MainWindow) : MainWindow :=
  refreshDownloadView { w with retainedCompleted := [] }

/-- The confirmed delete of the context menu, for the selected hashes. -/
def deleteDownloads (w : MainWindow) (hashes : List Hash16) : MainWindow :=
  let drop (retained : List Download) (hash : Hash16) := retained.filter fun d => d.hash ≠ hash
  refreshDownloadView { w with retainedCompleted := hashes.foldl drop w.retainedCompleted }

/-- What a status does to the lists. It does not refresh the view. -/
def onStatusChanged (w : MainWindow) (status : ConnStatus) : MainWindow :=
  match status with
  | .disconnected => { w with retainedCompleted := [], lastQueue := [] }
  | .connecting | .connected | .error => w

/-- What happens to the download lists. -/
inductive Action
  | downloadsUpdated (queue : List Download)
  | clearCompleted
  | deleteDownloads (hashes : List Hash16)
  | statusChanged (status : ConnStatus)

def step (w : MainWindow) : Action → MainWindow
  | .downloadsUpdated queue => w.onDownloadsUpdated queue
  | .clearCompleted => w.clearCompleted
  | .deleteDownloads hashes => w.deleteDownloads hashes
  | .statusChanged status => w.onStatusChanged status

end MainWindow

@[simp] theorem hash_asCompleted (d : Download) : (asCompleted d).hash = d.hash := rfl

@[simp] theorem ecid_asCompleted (d : Download) : (asCompleted d).ecid = d.ecid := rfl

@[simp] theorem sameDownload_asCompleted (a d : Download) :
    sameDownload (asCompleted a) d = sameDownload a d := rfl

theorem inList_iff {list : List Download} {d : Download} :
    inList list d = true ↔ ∃ x ∈ list, sameDownload x d = true := List.any_eq_true

theorem inList_eq_false_of_subset {list list' : List Download} {d : Download} (hsub : list ⊆ list')
    (h : inList list' d = false) : inList list d = false := by
  by_contra hin
  obtain ⟨x, hx, hsame⟩ := inList_iff.mp (eq_true_of_ne_false hin)
  exact absurd (inList_iff.mpr ⟨x, hsub hx, hsame⟩) (by simp [h])

theorem sameDownload_iff {a b : Download} : sameDownload a b = true ↔
    (a.hash ≠ Octets.zero 16 ∧ a.hash = b.hash) ∨ (a.ecid ≠ 0 ∧ a.ecid = b.ecid) := by
  simp [sameDownload]

/-- Hashes for closed examples, one for each byte. -/
def sampleHash (b : UInt8) : Hash16 := ⟨List.replicate 16 b, List.length_replicate⟩

namespace MainWindow

section retain

variable {guard : Download → Bool} {retained list : List Download} {d : Download}

theorem retain_cons : retain guard retained (d :: list) =
    retain guard (if guard d && isFinished d && !inList retained d then
      retained ++ [asCompleted d] else retained) list := rfl

/-- Nothing that was kept is lost. -/
theorem subset_retain : retained ⊆ retain guard retained list := by
  induction list generalizing retained with
  | nil => exact List.Subset.refl retained
  | cons d list ih =>
    rw [retain_cons]
    refine List.Subset.trans ?_ ih
    by_cases hkeep : (guard d && isFinished d && !inList retained d) = true
    · rw [if_pos hkeep]
      exact List.subset_append_left _ _
    · rw [if_neg hkeep]
      exact List.Subset.refl _

/-- What is kept was kept before, or is a finished download of the list that passes the
    guard and that nothing kept before matches. -/
theorem mem_retain {x : Download} (h : x ∈ retain guard retained list) :
    x ∈ retained ∨ ∃ d ∈ list, guard d = true ∧ isFinished d = true ∧
      inList retained d = false ∧ x = asCompleted d := by
  induction list generalizing retained with
  | nil => exact .inl h
  | cons d list ih =>
    rw [retain_cons] at h
    by_cases hkeep : (guard d && isFinished d && !inList retained d) = true
    · rw [if_pos hkeep] at h
      simp only [Bool.and_eq_true, Bool.not_eq_true'] at hkeep
      rcases ih h with hkept | ⟨d', hd', hguard, hfin, hnew, hx⟩
      · cases List.mem_append.mp hkept with
        | inl hold => exact .inl hold
        | inr hd =>
          exact .inr ⟨d, List.mem_cons_self, hkeep.1.1, hkeep.1.2, hkeep.2,
            List.mem_singleton.mp hd⟩
      · have hnew : inList retained d' = false :=
          inList_eq_false_of_subset (List.subset_append_left _ _) hnew
        exact .inr ⟨d', List.mem_cons_of_mem _ hd', hguard, hfin, hnew, hx⟩
    · rw [if_neg hkeep] at h
      rcases ih h with hold | ⟨d', hd', hrest⟩
      · exact .inl hold
      · exact .inr ⟨d', List.mem_cons_of_mem _ hd', hrest⟩

/-- A finished download that passes the guard is kept, unless something kept matches it. -/
theorem retain_covers (hd : d ∈ list) (hguard : guard d = true) (hfin : isFinished d = true) :
    asCompleted d ∈ retain guard retained list ∨
      ∃ r ∈ retain guard retained list, sameDownload r d = true := by
  induction list generalizing retained with
  | nil => exact absurd hd List.not_mem_nil
  | cons d' list ih =>
    rw [retain_cons]
    rcases List.mem_cons.mp hd with rfl | hd
    · by_cases hin : inList retained d = true
      · obtain ⟨r, hr, hsame⟩ := inList_iff.mp hin
        have hkeep : ¬(guard d && isFinished d && !inList retained d) = true := by simp [hin]
        rw [if_neg hkeep]
        exact .inr ⟨r, subset_retain hr, hsame⟩
      · have hkeep : (guard d && isFinished d && !inList retained d) = true := by
          simp [hguard, hfin, hin]
        rw [if_pos hkeep]
        exact .inl (subset_retain (List.mem_append_right _ List.mem_cons_self))
    · exact ih hd

end retain

/-- A download that a snapshot gives a reason to retain: it finished, nothing retained
    matches it, and the snapshot reports it or has dropped it. -/
def Retains (w : MainWindow) (queue : List Download) (d : Download) : Prop :=
  isFinished d = true ∧ inList w.retainedCompleted d = false ∧
    (d ∈ queue ∨ d ∈ w.lastQueue ∧ inList queue d = false)

theorem mem_retained_onDownloadsUpdated {w : MainWindow} {queue : List Download} {x : Download}
    (h : x ∈ (w.onDownloadsUpdated queue).retainedCompleted) :
    x ∈ w.retainedCompleted ∨ ∃ d, w.Retains queue d ∧ x = asCompleted d := by
  rcases mem_retain h with h | ⟨d, hd, -, hfin, hnew, hx⟩
  · rcases mem_retain h with h | ⟨d, hd, hguard, hfin, hnew, hx⟩
    · exact .inl h
    · exact .inr ⟨d, ⟨hfin, hnew, .inr ⟨hd, by simpa using hguard⟩⟩, hx⟩
  · exact .inr ⟨d, ⟨hfin, inList_eq_false_of_subset subset_retain hnew, .inl hd⟩, hx⟩

theorem subset_retained_onDownloadsUpdated (w : MainWindow) (queue : List Download) :
    w.retainedCompleted ⊆ (w.onDownloadsUpdated queue).retainedCompleted :=
  List.Subset.trans subset_retain subset_retain

theorem mem_shown_onDownloadsUpdated {w : MainWindow} {queue : List Download} {x : Download} :
    x ∈ (w.onDownloadsUpdated queue).shown ↔
      x ∈ queue ∨ x ∈ (w.onDownloadsUpdated queue).retainedCompleted ∧ inList queue x = false := by
  simp [onDownloadsUpdated, refreshDownloadView]

theorem mem_retained_deleteDownloads {w : MainWindow} {hashes : List Hash16} {x : Download} :
    x ∈ (w.deleteDownloads hashes).retainedCompleted ↔
      x ∈ w.retainedCompleted ∧ x.hash ∉ hashes := by
  simp only [deleteDownloads, refreshDownloadView]
  generalize w.retainedCompleted = retained
  induction hashes generalizing retained with
  | nil => simp
  | cons hash hashes ih =>
    rw [List.foldl_cons, ih, List.mem_filter, List.mem_cons, not_or, and_assoc, decide_eq_true_iff]

end MainWindow

end Amule
