import AmuleRemote.Lib.Run
import AmuleRemote.App.Downloads
import AmuleRemote.App.RowSelection

/-!
# The rows of the download table

`DownloadTableModel` holds the rows the table shows. The main window computes
them from its two lists, the last snapshot of the queue and the retained
downloads, and hands them over in `refreshDownloadView`; in between the table is
a cached function of these lists, and every handler that changes them has to
refresh it.
-/

namespace Amule

structure DownloadTableModel where
  downloads : List Download := []

namespace DownloadTableModel

def hashAt (t : DownloadTableModel) (row : ℕ) : Hash16 :=
  (t.downloads[row]?.map fun d => d.hash).getD (Octets.zero 16)

def ecidAt (t : DownloadTableModel) (row : ℕ) : UInt32 :=
  (t.downloads[row]?.map fun d => d.ecid).getD 0

/-- The same rows in the same order, which keeps the selection of the views. -/
def sameLayout (t : DownloadTableModel) (downloads : List Download) : Bool :=
  sameKeys (·.hash) downloads t.downloads

def setDownloads (t : DownloadTableModel) (downloads : List Download) :
    DownloadTableModel × ModelSignal :=
  if t.sameLayout downloads && !downloads.isEmpty then
    ({ downloads }, .dataChanged)
  else
    ({ downloads }, .modelReset)

/-- Whatever the views are told, the new rows replace the old ones. -/
@[simp] theorem downloads_setDownloads (t : DownloadTableModel) (downloads : List Download) :
    (t.setDownloads downloads).1.downloads = downloads := by
  unfold setDownloads
  split
  · rfl
  · rfl

end DownloadTableModel

namespace MainWindow

/-- The rows that the two lists of the window stand for. -/
def merge (w : MainWindow) : List Download :=
  w.lastQueue ++ w.retainedCompleted.filter fun r => !inList w.lastQueue r

theorem merge_eq_nil_iff {w : MainWindow} :
    w.merge = [] ↔ w.lastQueue = [] ∧ w.retainedCompleted = [] := by
  constructor
  · intro h
    obtain ⟨hqueue, hretained⟩ := List.append_eq_nil_iff.mp h
    refine ⟨hqueue, ?_⟩
    have hall : w.retainedCompleted.filter (fun r => !inList [] r) = w.retainedCompleted :=
      List.filter_eq_self.mpr fun r _ => rfl
    rwa [hqueue, hall] at hretained
  · rintro ⟨hqueue, hretained⟩
    rw [merge, hqueue, hretained]
    rfl

/-- The window and the model of its table. -/
structure Screen where
  window : MainWindow := {}
  model : DownloadTableModel := {}

namespace Screen

def step (s : Screen) (act : Action) : Screen where
  window := s.window.step act
  model :=
    match act with
    -- the only handler that leaves the table alone
    | .statusChanged _ => s.model
    | .downloadsUpdated _ | .clearCompleted | .deleteDownloads _ =>
      (s.model.setDownloads (s.window.step act).shown).1

/-- The table shows the rows that the lists stand for. -/
def Current (s : Screen) : Prop := s.model.downloads = s.window.merge

/-- A session ends with nothing on the screen. -/
def EndsEmpty (s : Screen) : Action → Prop
  | .statusChanged .disconnected => s.window.lastQueue = [] ∧ s.window.retainedCompleted = []
  | _ => True

/-- The handlers that refresh the view bring the table up to date, and a status does so
    exactly if it does not empty the lists under the rows. -/
theorem current_step_iff (s : Screen) (act : Action) (hs : s.Current) :
    (s.step act).Current ↔ s.EndsEmpty act := by
  cases act with
  | downloadsUpdated queue =>
    exact iff_of_true (DownloadTableModel.downloads_setDownloads _ _) trivial
  | clearCompleted => exact iff_of_true (DownloadTableModel.downloads_setDownloads _ _) trivial
  | deleteDownloads hashes =>
    exact iff_of_true (DownloadTableModel.downloads_setDownloads _ _) trivial
  | statusChanged status =>
    cases status with
    | disconnected =>
      calc (s.step (.statusChanged .disconnected)).Current
        _ ↔ s.model.downloads = [] := Iff.rfl
        _ ↔ s.window.merge = [] := by rw [hs]
        _ ↔ s.window.lastQueue = [] ∧ s.window.retainedCompleted = [] := merge_eq_nil_iff
    | connecting | connected | error => exact iff_of_true hs trivial

/-- The rows are current throughout a run exactly if no session of it ends with downloads on
    the screen. -/
theorem current_iff_endsEmpty (acts : List Action) :
    Run.Always step Current {} acts ↔ Run.Along step EndsEmpty {} acts := by
  apply Run.always_iff_along (fun s act _ hs => current_step_iff s act hs) (V := fun _ => True)
  · exact fun _ _ => trivial
  · rfl

/-- The rows of a dead session stay, with their hashes behind them. -/
theorem stale_after_disconnect : ¬Run.Always step Current {}
    [.downloadsUpdated [{ ecid := 7, hash := sampleHash 1 }], .statusChanged .disconnected] := by
  intro h
  have hrows : [({ ecid := 7, hash := sampleHash 1 } : Download)] = [] := h.2.2
  exact List.cons_ne_nil _ _ hrows

end Screen

end MainWindow

end Amule
