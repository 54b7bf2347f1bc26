import AmuleRemote.Lib.Run
import AmuleRemote.App.Downloads

/-!
# Downloads taken off the screen

Clearing the completed downloads, and deleting some, takes downloads off the
screen. They should stay off it: a later snapshot that does not contain such a
download must not show it.

Both actions edit the retained downloads only. The snapshot before the action is
still there, and the next one retains from it, so a download that was finished
in it comes back for good as soon as the daemon has dropped it.
-/

namespace Amule

namespace MainWindow

/-- `x` is the download `d`: it has its hash or, if there is none, its EC id. -/
def IsDownload (d x : Download) : Prop :=
  x.hash = d.hash ∧ (d.hash = Octets.zero 16 → x.ecid = d.ecid)

/-- The downloads that an action takes off the screen: those that are finished when the
    completed ones are cleared, and those that have a deleted hash. -/
inductive Dropped (w : MainWindow) : Action → (Download → Prop) → Prop
  | cleared {d : Download} (hd : d ∈ w.lastQueue ++ w.retainedCompleted)
      (hfin : isFinished d = true) : Dropped w .clearCompleted (IsDownload d)
  | deleted {hashes : List Hash16} {hash : Hash16} (h : hash ∈ hashes) :
      Dropped w (.deleteDownloads hashes) fun x => x.hash = hash

/-- A snapshot without any of the dropped downloads does not show one. -/
def Hides (dropped : Download → Prop) (w : MainWindow) : Action → Prop
  | .downloadsUpdated queue =>
    (∀ x ∈ queue, ¬dropped x) → ∀ x ∈ (w.step (.downloadsUpdated queue)).shown, ¬dropped x
  | _ => True

/-- A snapshot gives no reason to retain one of the dropped downloads. -/
def Quiet (dropped : Download → Prop) (w : MainWindow) : Action → Prop
  | .downloadsUpdated queue => ∀ d, w.Retains queue d → ¬dropped d
  | _ => True

/-- After every action of the run, `C` holds along the rest of it for what the action drops. -/
def AfterDrops (C : (Download → Prop) → MainWindow → Action → Prop) (w : MainWindow)
    (acts : List Action) : Prop :=
  Run.Followed step (fun w act rest => ∀ dropped, w.Dropped act dropped →
    Run.Along step (C dropped) (w.step act) rest) w acts

section Dropped

variable {w : MainWindow} {act : Action} {dropped : Download → Prop}

theorem Dropped.asCompleted (h : w.Dropped act dropped) (d : Download) :
    dropped (asCompleted d) ↔ dropped d := by
  cases h with
  | cleared hd hfin => rfl
  | deleted h => rfl

/-- An action leaves nothing it drops among the retained downloads. -/
theorem Dropped.not_retained (h : w.Dropped act dropped) :
    ∀ x ∈ (w.step act).retainedCompleted, ¬dropped x := by
  cases h with
  | cleared hd hfin =>
    intro x hx
    exact absurd hx List.not_mem_nil
  | @deleted hashes hash hhash =>
    intro x hx heq
    have hkept : x ∈ (w.deleteDownloads hashes).retainedCompleted := hx
    rw [mem_retained_deleteDownloads, heq] at hkept
    exact hkept.2 hhash

end Dropped

/-- A quiet step retains none of the dropped downloads, and shows none that a snapshot
    leaves out. -/
theorem not_retained_step {dropped : Download → Prop}
    (hcompleted : ∀ d, dropped (asCompleted d) ↔ dropped d) (w : MainWindow) (act : Action)
    (hw : ∀ x ∈ w.retainedCompleted, ¬dropped x) (hquiet : w.Quiet dropped act) :
    (∀ x ∈ (w.step act).retainedCompleted, ¬dropped x) ∧ w.Hides dropped act := by
  cases act with
  | downloadsUpdated queue =>
    have hretained : ∀ x ∈ (w.onDownloadsUpdated queue).retainedCompleted, ¬dropped x := by
      intro x hx
      rcases mem_retained_onDownloadsUpdated hx with hold | ⟨d, hd, rfl⟩
      · exact hw x hold
      · rw [hcompleted]
        exact hquiet d hd
    refine ⟨hretained, fun hqueue x hx => ?_⟩
    rcases mem_shown_onDownloadsUpdated.mp hx with hx | ⟨hx, -⟩
    · exact hqueue x hx
    · exact hretained x hx
  | clearCompleted => exact ⟨fun x hx => absurd hx List.not_mem_nil, trivial⟩
  | deleteDownloads hashes =>
    exact ⟨fun x hx => hw x (mem_retained_deleteDownloads.mp hx).1, trivial⟩
  | statusChanged status =>
    refine ⟨?_, trivial⟩
    cases status with
    | disconnected => exact fun x hx => absurd hx List.not_mem_nil
    | connecting | connected | error => exact hw

/-- Dropped downloads stay off the screen in every run in which the snapshots that come
    after the drop are quiet about them. -/
theorem hidden_of_quiet (w : MainWindow) (acts : List Action) (h : AfterDrops Quiet w acts) :
    AfterDrops Hides w acts := by
  refine Run.Followed.mono (fun w act rest hact dropped hdropped => ?_) h
  exact Run.along_of_invariant (not_retained_step hdropped.asCompleted) hdropped.not_retained
    (hact dropped hdropped)

/-- A download the daemon reports as finished. -/
def sampleFinished : Download :=
  { ecid := 7, hash := sampleHash 1, status := Ec.Status.complete }

/-- The download is cleared while it is in the last snapshot, and then the daemon drops it. -/
theorem reappears_after_clear : ¬AfterDrops Hides {}
    [.downloadsUpdated [sampleFinished], .clearCompleted, .downloadsUpdated []] := by
  intro h
  have hcleared := h.2.1 (IsDownload sampleFinished) (.cleared (by decide) (by decide))
  have hhidden := hcleared.1 (fun x hx => absurd hx List.not_mem_nil) (asCompleted sampleFinished)
    (by decide)
  exact hhidden ⟨rfl, fun _ => rfl⟩

/-- The download is cleared after the daemon has dropped it. -/
theorem hidden_after_late_clear : AfterDrops Hides {}
    [.downloadsUpdated [sampleFinished], .downloadsUpdated [], .clearCompleted,
      .downloadsUpdated []] := by
  refine hidden_of_quiet _ _ ⟨?_, ?_, ?_, ?_, trivial⟩
  · rintro dropped ⟨⟩
  · rintro dropped ⟨⟩
  · rintro dropped -
    refine ⟨fun d hd => ?_, trivial⟩
    obtain ⟨-, -, hqueue | ⟨hlast, -⟩⟩ := hd
    · exact absurd hqueue List.not_mem_nil
    · exact absurd hlast List.not_mem_nil
  · rintro dropped ⟨⟩

end MainWindow

end Amule
