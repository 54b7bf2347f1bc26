import AmuleRemote.App.DownloadTable

/-!
# The sources of the selected download

The transfers tab of `mainwindow.cpp`: the download table with its selection, and
the source table under it. The EC id of the current download is copied into the
source model when the selection changes, and only then. A refresh of the queue that
keeps the hashes may bring another EC id for the selected download, and one that
does not clears the selection without a signal; the source model is told of
neither.

Several rows can be selected, and the current row can be taken out of the selection
while others stay in it. The current download is the selected one while it is
selected at all; otherwise the downloads are that are.
-/

namespace Amule

/-- `all` are the sources of every download, `visible` those of the one with `fileEcid`. -/
structure SourceTableModel where
  all : List SourceClient := []
  visible : List SourceClient := []
  fileEcid : UInt32 := 0

namespace SourceTableModel

def rebuild (m : SourceTableModel) : SourceTableModel × ModelSignal :=
  let next := if m.fileEcid ≠ 0 then m.all.filter (·.fileEcid = m.fileEcid) else []
  if sameKeys (·.id) next m.visible && !next.isEmpty then
    ({ m with visible := next }, .dataChanged)
  else
    ({ m with visible := next }, .modelReset)

def setSources (m : SourceTableModel) (sources : List SourceClient) : SourceTableModel :=
  ({ m with all := sources }.rebuild).1

def setFileEcid (m : SourceTableModel) (ecid : UInt32) : SourceTableModel :=
  if m.fileEcid = ecid then m
  else ({ m with fileEcid := ecid }.rebuild).1

/-- The table shows the source for a file with the EC id `ecid`. -/
def Shows (ecid : UInt32) (c : SourceClient) : Prop := ecid ≠ 0 ∧ c.fileEcid = ecid

instance decidableShows (ecid : UInt32) (c : SourceClient) : Decidable (Shows ecid c) :=
  inferInstanceAs (Decidable (ecid ≠ 0 ∧ c.fileEcid = ecid))

/-- The rows are those of the stored EC id. -/
def Built (m : SourceTableModel) : Prop := m.visible = m.all.filter (Shows m.fileEcid)

theorem next_eq (m : SourceTableModel) :
    (if m.fileEcid ≠ 0 then m.all.filter (·.fileEcid = m.fileEcid) else []) =
      m.all.filter (Shows m.fileEcid) := by
  by_cases h : m.fileEcid = 0
  · simp [Shows, h]
  · simp [Shows, h]

theorem rebuild_eq (m : SourceTableModel) :
    m.rebuild.1 = { m with visible := m.all.filter (Shows m.fileEcid) } := by
  simp only [rebuild, next_eq]
  split
  · rfl
  · rfl

theorem rebuild_inPlace_iff (m : SourceTableModel) :
    m.rebuild.2 = .dataChanged ↔
      (m.all.filter (Shows m.fileEcid)).map (·.id) = m.visible.map (·.id) ∧
        m.all.filter (Shows m.fileEcid) ≠ [] := by
  rw [← sameKeys_iff]
  simp only [rebuild, next_eq]
  by_cases h : (sameKeys (·.id) (m.all.filter (Shows m.fileEcid)) m.visible &&
      !(m.all.filter (Shows m.fileEcid)).isEmpty) = true
  · rw [if_pos h]
    exact iff_of_true rfl (by simpa using h)
  · rw [if_neg h]
    exact iff_of_false (by simp) (by simpa using h)

@[simp] theorem all_setSources (m : SourceTableModel) (sources : List SourceClient) :
    (m.setSources sources).all = sources := by rw [setSources, rebuild_eq]

@[simp] theorem fileEcid_setSources (m : SourceTableModel) (sources : List SourceClient) :
    (m.setSources sources).fileEcid = m.fileEcid := by rw [setSources, rebuild_eq]

theorem built_setSources (m : SourceTableModel) (sources : List SourceClient) :
    (m.setSources sources).Built := by
  rw [setSources, rebuild_eq]
  rfl

@[simp] theorem all_setFileEcid (m : SourceTableModel) (ecid : UInt32) :
    (m.setFileEcid ecid).all = m.all := by
  rw [setFileEcid]
  split
  · rfl
  · rw [rebuild_eq]

@[simp] theorem fileEcid_setFileEcid (m : SourceTableModel) (ecid : UInt32) :
    (m.setFileEcid ecid).fileEcid = ecid := by
  rw [setFileEcid]
  split
  · assumption
  · rw [rebuild_eq]

theorem Built.setFileEcid {m : SourceTableModel} (h : m.Built) (ecid : UInt32) :
    (m.setFileEcid ecid).Built := by
  rw [SourceTableModel.setFileEcid]
  split
  · exact h
  · rw [rebuild_eq]
    rfl

end SourceTableModel

open SourceTableModel (Shows)

structure TransfersTab where
  model : DownloadTableModel := {}
  selection : ViewSelection := {}
  sourceModel : SourceTableModel := {}

namespace TransfersTab

/-- The queue's rows, replaced or reset. -/
def setDownloads (t : TransfersTab) (downloads : List Download) : TransfersTab :=
  let (model, signal) := t.model.setDownloads downloads
  { t with
    model
    selection := t.selection.notified signal }

def onTransferSelectionChanged (t : TransfersTab) : TransfersTab :=
  let ecid :=
    match t.selection.current with
    | some row => t.model.ecidAt row
    | none => 0
  { t with sourceModel := t.sourceModel.setFileEcid ecid }

def selectionChanged (t : TransfersTab) (selection : ViewSelection) : TransfersTab :=
  { t with
    selection := selection.within t.model.downloads.length }.onTransferSelectionChanged

def setSources (t : TransfersTab) (sources : List SourceClient) : TransfersTab :=
  { t with sourceModel := t.sourceModel.setSources sources }

inductive Event
  | setDownloads (downloads : List Download)
  | selectionChanged (selection : ViewSelection)
  | setSources (sources : List SourceClient)

def step (t : TransfersTab) : Event → TransfersTab
  | .setDownloads downloads => t.setDownloads downloads
  | .selectionChanged selection => t.selectionChanged selection
  | .setSources sources => t.setSources sources

/-- The source is one of a selected download, as the queue has it. -/
def Owned (t : TransfersTab) (c : SourceClient) : Prop :=
  ∃ row ∈ t.selection.chosen, t.model.ecidAt row = c.fileEcid

instance decidableOwned (t : TransfersTab) (c : SourceClient) : Decidable (t.Owned c) :=
  inferInstanceAs (Decidable (∃ row ∈ t.selection.chosen, t.model.ecidAt row = c.fileEcid))

/-- The sources table shows the sources of the selected download and no others. -/
def Follows (t : TransfersTab) : Prop := t.sourceModel.visible = t.sourceModel.all.filter t.Owned

instance decidableFollows (t : TransfersTab) : Decidable t.Follows :=
  inferInstanceAs (Decidable (t.sourceModel.visible = t.sourceModel.all.filter t.Owned))

/-- A download in one of these rows has the EC id `stored` or no sources, and `stored` is the EC id
    of one of them or of no source. -/
def Fits (model : DownloadTableModel) (rows : Finset ℕ) (sources : List SourceClient)
    (stored : UInt32) : Prop :=
  (∀ row ∈ rows, model.ecidAt row = stored ∧ stored ≠ 0 ∨
    ∀ c ∈ sources, c.fileEcid ≠ model.ecidAt row) ∧
  (stored ≠ 0 → (∃ row ∈ rows, model.ecidAt row = stored) ∨ ∀ c ∈ sources, c.fileEcid ≠ stored)

/-- What each event has to leave alone. -/
def Tells (t : TransfersTab) : Event → Prop
  | .setDownloads downloads =>
    if t.model.sameLayout downloads ∧ downloads ≠ [] then
      -- in place: the selected rows keep the EC ids of their sources
      ∀ c ∈ t.sourceModel.all, t.Owned c ↔
        ∃ row ∈ t.selection.chosen, DownloadTableModel.ecidAt ⟨downloads⟩ row = c.fileEcid
    else
      -- a reset: the downloads that were selected have no sources
      ∀ c ∈ t.sourceModel.all, ¬t.Owned c
  | .selectionChanged selection =>
    -- the EC id of the current row, selected or not
    let selection := selection.within t.model.downloads.length
    Fits t.model selection.chosen t.sourceModel.all
      ((selection.current.map t.model.ecidAt).getD 0)
  | .setSources sources => Fits t.model t.selection.chosen sources t.sourceModel.fileEcid

/-! ## Steps -/

theorem filter_eq_filter_iff {α : Type} {p q : α → Prop} [DecidablePred p] [DecidablePred q]
    {l : List α} : l.filter p = l.filter q ↔ ∀ a ∈ l, p a ↔ q a := by
  constructor
  · intro h a ha
    have hp : a ∈ l.filter p ↔ p a := by simp [ha]
    have hq : a ∈ l.filter q ↔ q a := by simp [ha]
    rw [← hp, ← hq, h]
  · intro h
    exact List.filter_congr fun a ha => decide_eq_decide.mpr (h a ha)

/-- The table is right exactly if the stored EC id has the sources of the selected downloads. -/
theorem follows_iff {t : TransfersTab} (h : t.sourceModel.Built) :
    t.Follows ↔ ∀ c ∈ t.sourceModel.all, Shows t.sourceModel.fileEcid c ↔ t.Owned c := by
  rw [Follows, h]
  exact filter_eq_filter_iff

theorem fits_iff {model : DownloadTableModel} {rows : Finset ℕ} {sources : List SourceClient}
    {stored : UInt32} : Fits model rows sources stored ↔
      ∀ c ∈ sources, Shows stored c ↔ ∃ row ∈ rows, model.ecidAt row = c.fileEcid := by
  constructor
  · rintro ⟨hrows, hstored⟩ c hc
    constructor
    · rintro ⟨hpos, hshown⟩
      rcases hstored hpos with ⟨row, hrow, hecid⟩ | hnone
      · exact ⟨row, hrow, hecid.trans hshown.symm⟩
      · exact absurd hshown (hnone c hc)
    · rintro ⟨row, hrow, hecid⟩
      rcases hrows row hrow with ⟨hsame, hpos⟩ | hnone
      · exact ⟨hpos, hecid.symm.trans hsame⟩
      · exact absurd hecid.symm (hnone c hc)
  · intro h
    refine ⟨fun row hrow => ?_, fun hpos => ?_⟩
    · by_cases hsame : model.ecidAt row = stored ∧ stored ≠ 0
      · exact .inl hsame
      · refine .inr fun c hc hecid => hsame ?_
        obtain ⟨hpos, hshown⟩ := (h c hc).mpr ⟨row, hrow, hecid.symm⟩
        exact ⟨hecid.symm.trans hshown, hpos⟩
    · by_cases hsome : ∃ row ∈ rows, model.ecidAt row = stored
      · exact .inl hsome
      · refine .inr fun c hc hshown => hsome ?_
        obtain ⟨row, hrow, hecid⟩ := (h c hc).mp ⟨hpos, hshown⟩
        exact ⟨row, hrow, hecid.trans hshown⟩

theorem built_step (t : TransfersTab) (ev : Event) (h : t.sourceModel.Built) :
    (t.step ev).sourceModel.Built := by
  cases ev with
  | setDownloads downloads => exact h
  | selectionChanged selection => exact h.setFileEcid _
  | setSources sources => exact SourceTableModel.built_setSources _ _

/-- Rows that are taken in place stay selected, and a reset leaves none. -/
theorem owned_setDownloads (t : TransfersTab) (downloads : List Download) (c : SourceClient) :
    (t.setDownloads downloads).Owned c ↔ (t.model.sameLayout downloads ∧ downloads ≠ []) ∧
      ∃ row ∈ t.selection.chosen, DownloadTableModel.ecidAt ⟨downloads⟩ row = c.fileEcid := by
  unfold setDownloads DownloadTableModel.setDownloads
  by_cases hplace : t.model.sameLayout downloads = true ∧ downloads ≠ []
  · have hcond : (t.model.sameLayout downloads && !downloads.isEmpty) = true := by
      simpa using hplace
    rw [if_pos hcond, and_iff_right hplace]
    rfl
  · have hcond : ¬(t.model.sameLayout downloads && !downloads.isEmpty) = true := by
      simpa using hplace
    rw [if_neg hcond]
    refine iff_of_false ?_ fun h => hplace h.1
    rintro ⟨row, hrow, -⟩
    exact absurd hrow (Finset.notMem_empty row)

theorem setDownloads_follows_iff (t : TransfersTab) (downloads : List Download)
    (hbuilt : t.sourceModel.Built) (h : t.Follows) :
    (t.setDownloads downloads).Follows ↔ t.Tells (.setDownloads downloads) := by
  have hbefore := (follows_iff hbuilt).mp h
  -- the source model is as it was, so its rows are right if they belong to the same downloads
  have hafter : (t.setDownloads downloads).Follows ↔
      ∀ c ∈ t.sourceModel.all, t.Owned c ↔ (t.setDownloads downloads).Owned c := by
    rw [follows_iff (t := t.setDownloads downloads) hbuilt]
    exact forall₂_congr fun c hc => iff_congr (hbefore c hc) Iff.rfl
  rw [hafter, Tells]
  simp only [owned_setDownloads]
  by_cases hplace : t.model.sameLayout downloads = true ∧ downloads ≠ []
  · simp only [if_pos hplace, and_iff_right hplace]
  · rw [if_neg hplace]
    simp only [hplace, false_and, iff_false]

theorem selectionChanged_follows_iff (t : TransfersTab) (selection : ViewSelection)
    (hbuilt : t.sourceModel.Built) :
    (t.selectionChanged selection).Follows ↔ t.Tells (.selectionChanged selection) := by
  have hall : (t.selectionChanged selection).sourceModel.all = t.sourceModel.all :=
    SourceTableModel.all_setFileEcid _ _
  have hecid : (t.selectionChanged selection).sourceModel.fileEcid =
      ((selection.within t.model.downloads.length).current.map t.model.ecidAt).getD 0 := by
    refine (SourceTableModel.fileEcid_setFileEcid _ _).trans ?_
    show (match (selection.within t.model.downloads.length).current with
      | some row => t.model.ecidAt row
      | none => 0) = _
    cases (selection.within t.model.downloads.length).current with
    | none => rfl
    | some row => rfl
  rw [follows_iff (t := t.selectionChanged selection) (hbuilt.setFileEcid _), hall, hecid]
  exact fits_iff.symm

theorem setSources_follows_iff (t : TransfersTab) (sources : List SourceClient) :
    (t.setSources sources).Follows ↔ t.Tells (.setSources sources) := by
  rw [follows_iff (t := t.setSources sources) (SourceTableModel.built_setSources _ _)]
  simp only [setSources, SourceTableModel.all_setSources, SourceTableModel.fileEcid_setSources]
  exact fits_iff.symm

theorem follows_step_iff (t : TransfersTab) (ev : Event) (hbuilt : t.sourceModel.Built)
    (h : t.Follows) : (t.step ev).Follows ↔ t.Tells ev := by
  cases ev with
  | setDownloads downloads => exact setDownloads_follows_iff t downloads hbuilt h
  | selectionChanged selection => exact selectionChanged_follows_iff t selection hbuilt
  | setSources sources => exact setSources_follows_iff t sources

/-- The sources table follows the selected download throughout a run exactly if every event
    leaves alone what the source model is not told of. -/
theorem follows_iff_tells (evs : List Event) :
    Run.Always step Follows {} evs ↔ Run.Along step Tells {} evs := by
  have hstep : ∀ t ev, True → SourceTableModel.Built t.sourceModel → Follows t →
      (Follows (step t ev) ↔ Tells t ev) := fun t ev _ => follows_step_iff t ev
  exact Run.always_iff_along_within built_step hstep (fun _ _ => trivial) rfl rfl

/-- The daemon restarts while a download is selected: the same hash comes back with another EC id,
    and so do its sources. -/
def restartedDaemon : List Event :=
  [.setDownloads [{ ecid := 1, hash := sampleHash 1 }], .selectionChanged ⟨{0}, some 0⟩,
    .setSources [{ id := 5, fileEcid := 1 }],
    .setDownloads [{ ecid := 2, hash := sampleHash 1 }],
    .setSources [{ id := 6, fileEcid := 2 }]]

/-- The download is selected and has a source, which is not shown. -/
theorem not_follows_restartedDaemon :
    ¬Run.Always step Follows {} restartedDaemon ∧
      (restartedDaemon.foldl step {}).Owned { id := 6, fileEcid := 2 } ∧
      (restartedDaemon.foldl step {}).sourceModel.visible = [] := by
  refine ⟨?_, ?_, ?_⟩
  · decide +kernel
  · decide +kernel
  · decide +kernel

/-- Of two selected downloads the current one is taken out of the selection, and the other one's
    source is not shown. -/
example : ¬Run.Always step Follows {}
    [.setDownloads [{ ecid := 1, hash := sampleHash 1 }, { ecid := 2, hash := sampleHash 2 }],
      .setSources [{ id := 5, fileEcid := 2 }], .selectionChanged ⟨{0, 1}, some 0⟩,
      .selectionChanged ⟨{1}, some 0⟩] := by
  decide +kernel

end TransfersTab

end Amule
