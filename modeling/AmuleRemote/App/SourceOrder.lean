import AmuleRemote.Lib.StableSort
import AmuleRemote.Ec.SourceHistory
import AmuleRemote.Ec.Worker
import AmuleRemote.App.SourcePanel

/-!
# The order of the source list

A refresh lists the sources by their speed. It copies them from a hash map and
sorts them stably, so sources of one speed are listed as the map is iterated, and
that depends on how the map came about. The source table takes a list in place if
it has the same sources in the same order, and is reset otherwise.

A `SourceMap` is a map together with the order of its iteration.
-/

namespace Amule

open Ec

/-- The records of a map as it is iterated. -/
def SourceMap.records (clients : SourceMap) : List SourceClient := clients.entries.map (·.2)

/-- Neither is listed before the other for its speed. -/
def SameSpeed (a b : SourceClient) : Prop :=
  a.downSpeed.gt b.downSpeed = false ∧ b.downSpeed.gt a.downSpeed = false

instance decidableSameSpeed (a b : SourceClient) : Decidable (SameSpeed a b) :=
  inferInstanceAs (Decidable (_ ∧ _))

/-- Both maps are listed alike, and a source table that shows the sources of one takes those of the
    other in place. -/
def ListedAlike (m₁ m₂ : SourceMap) : Prop :=
  EcWorker.sortedSources m₁ = EcWorker.sortedSources m₂ ∧
    ∀ table : SourceTableModel,
      let shown := table.setSources (EcWorker.sortedSources m₁)
      shown.visible ≠ [] →
        { shown with all := EcWorker.sortedSources m₂ }.rebuild.2 = .dataChanged

/-! ## Sorting by speed -/

/-- The sources in the order of their speeds, read as keys. -/
def Faster (a b : SourceClient) : Prop := b.downSpeed.key < a.downSpeed.key

instance decidableFaster : DecidableRel Faster :=
  fun a b => inferInstanceAs (Decidable (b.downSpeed.key < a.downSpeed.key))

instance isStrictWeakOrder_faster : IsStrictWeakOrder SourceClient Faster :=
  inferInstanceAs (IsStrictWeakOrder SourceClient
    (Function.onFun (· > ·) fun c => c.downSpeed.key))

theorem gt_iff_faster {a b : SourceClient} (ha : a.downSpeed.isNaN = false)
    (hb : b.downSpeed.isNaN = false) : a.downSpeed.gt b.downSpeed = true ↔ Faster a b := by
  simp [Double.gt, ha, hb, Faster]

theorem ties_faster_iff {a b : SourceClient} (ha : a.downSpeed.isNaN = false)
    (hb : b.downSpeed.isNaN = false) : StableSort.Ties Faster a b ↔ SameSpeed a b := by
  rw [StableSort.Ties, ← gt_iff_faster ha hb, ← gt_iff_faster hb ha, SameSpeed,
    Bool.not_eq_true, Bool.not_eq_true]

/-- Away from NaN the list is the stable sort by speed. -/
theorem sortedSources_eq {clients : SourceMap}
    (hnan : ∀ c ∈ clients.records, c.downSpeed.isNaN = false) :
    EcWorker.sortedSources clients = StableSort.sort Faster clients.records := by
  have hgt : EcWorker.sortedSources clients =
      StableSort.sort (fun a b => a.downSpeed.gt b.downSpeed = true) clients.records := by
    simp only [StableSort.sort, Bool.not_eq_true]
    rfl
  rw [hgt]
  exact StableSort.sort_congr fun a ha b hb => gt_iff_faster (hnan a ha) (hnan b hb)

/-! ## Two maps with the same sources -/

/-- Maps that agree on every id iterate the same records. -/
theorem records_perm {m₁ m₂ : SourceMap} (h : ∀ id, m₁.lookup id = m₂.lookup id) :
    m₁.records.Perm m₂.records := by
  refine List.Perm.map _ (List.lookup_ext m₁.nodupKeys m₂.nodupKeys fun id source => ?_)
  exact iff_of_eq (congrArg (source ∈ ·) (h id))

/-- A list that the table shows already is taken in place. -/
theorem SourceTableModel.rebuild_same (table : SourceTableModel) (sources : List SourceClient)
    (h : (table.setSources sources).visible ≠ []) :
    { table.setSources sources with all := sources }.rebuild.2 = .dataChanged := by
  have hbuilt : (table.setSources sources).visible =
      sources.filter (Shows (table.setSources sources).fileEcid) := by
    rw [setSources, rebuild_eq]
  rw [rebuild_inPlace_iff, ← hbuilt]
  exact ⟨rfl, h⟩

/-- The sources are listed alike exactly if both maps iterate the sources of each speed in the same
    order. -/
theorem listedAlike_iff {m₁ m₂ : SourceMap} (h : ∀ id, m₁.lookup id = m₂.lookup id)
    (hnan : ∀ c ∈ m₁.records, c.downSpeed.isNaN = false) :
    ListedAlike m₁ m₂ ↔
      ∀ c ∈ m₁.records, m₁.records.filter (SameSpeed c) = m₂.records.filter (SameSpeed c) := by
  have hperm := records_perm h
  have hnan₂ : ∀ c ∈ m₂.records, c.downSpeed.isNaN = false := fun c hc =>
    hnan c (hperm.mem_iff.mpr hc)
  have hsort : EcWorker.sortedSources m₁ = EcWorker.sortedSources m₂ ↔
      ∀ c ∈ m₁.records, m₁.records.filter (SameSpeed c) = m₂.records.filter (SameSpeed c) := by
    rw [sortedSources_eq hnan, sortedSources_eq hnan₂, StableSort.sort_eq_sort_iff hperm]
    refine forall₂_congr fun c hc => ?_
    have hties₁ : m₁.records.filter (StableSort.Ties Faster c) = m₁.records.filter (SameSpeed c) :=
      List.filter_congr fun b hb => decide_eq_decide.mpr (ties_faster_iff (hnan c hc) (hnan b hb))
    have hties₂ : m₂.records.filter (StableSort.Ties Faster c) = m₂.records.filter (SameSpeed c) :=
      List.filter_congr fun b hb => decide_eq_decide.mpr (ties_faster_iff (hnan c hc) (hnan₂ b hb))
    rw [hties₁, hties₂]
  rw [← hsort, ListedAlike]
  refine and_iff_left_of_imp fun heq table hshown => ?_
  rw [← heq]
  exact table.rebuild_same _ hshown

/-- Two sources of different speeds, put into the map one after the other. -/
def twoSpeeds (first second : UInt32) : SourceMap :=
  let source (id : UInt32) : SourceClient :=
    { id
      downSpeed := Double.ofUInt64 id.toUInt64 }
  ((∅ : SourceMap).insert first (source first)).insert second (source second)

theorem listedAlike_twoSpeeds : ListedAlike (twoSpeeds 1 2) (twoSpeeds 2 1) := by
  refine (listedAlike_iff (fun id => AList.perm_lookup ?_) ?_).mpr ?_
  · decide +kernel
  · decide +kernel
  · decide +kernel

/-- A reply that lists two new sources of the file with the EC id 7, one after the other. -/
def listing (first second : UInt64) : Packet :=
  let entry (id : UInt64) : Tag :=
    { name := TagName.client
      value := .int id
      children := [{ name := TagName.clientRequestFile, value := .int 7 }] }
  ⟨Op.sharedFiles, [{ name := TagName.client, children := [entry first, entry second] }]⟩

/-- The sources came in one order or in the other. -/
theorem not_listedAlike_listing :
    let m₁ := updateClients ∅ (listing 1 2)
    let m₂ := updateClients ∅ (listing 2 1)
    (∀ id, m₁.lookup id = m₂.lookup id) ∧
      (∀ c ∈ m₁.records, c.downSpeed.isNaN = false) ∧ ¬ListedAlike m₁ m₂ ∧
      ((EcWorker.sortedSources m₁).map (·.id), (EcWorker.sortedSources m₂).map (·.id)) =
        ([2, 1], [1, 2]) := by
  refine ⟨fun id => ?_, ?_, fun h => ?_, ?_⟩
  · refine AList.perm_lookup ?_
    decide +kernel
  · decide +kernel
  · exact absurd h.1 (by decide +kernel)
  · decide +kernel

end Amule
