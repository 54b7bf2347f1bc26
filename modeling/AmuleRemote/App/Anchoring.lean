import AmuleRemote.App.FilterProxy
import AmuleRemote.App.DownloadTable

/-!
# Anchored results over a live search

A result tab of `searchpanel.cpp`: the result model, the proxy with its anchored
rows and the view's selection. The rows are anchored when the selection changes or
the box is toggled, and they are bare row numbers. A refresh with another layout
resets the model, which clears the selection and tells nobody: the proxy keeps the
row numbers, over other results.

`anchoredFrom` keeps the results that were listed when the rows were anchored, which
the program does not know.
-/

namespace Amule

structure SearchResultModel where
  results : List SearchResult := []

namespace SearchResultModel

def sameLayout (m : SearchResultModel) (results : List SearchResult) : Bool :=
  sameKeys (·.hash) results m.results

def setResults (m : SearchResultModel) (results : List SearchResult) :
    SearchResultModel × ModelSignal :=
  if m.sameLayout results && !results.isEmpty then
    ({ results }, .dataChanged)
  else
    ({ results }, .modelReset)

@[simp] theorem results_setResults (m : SearchResultModel) (results : List SearchResult) :
    (m.setResults results).1.results = results := by
  unfold setResults
  split
  · rfl
  · rfl

end SearchResultModel

/-- A result tab with the panel's "anchor selected" box. -/
structure ResultTab where
  model : SearchResultModel := {}
  proxy : SearchResultFilterProxy := {}
  selection : ViewSelection := {}
  anchorCheck : Bool := false
  anchoredFrom : List SearchResult := []

namespace ResultTab

def updateAnchor (t : ResultTab) : ResultTab :=
  let enabled := t.anchorCheck
  let rows := if enabled then t.selection.rows else ∅
  { t with
    proxy := t.proxy.setAnchored rows enabled
    anchoredFrom := t.model.results }

def selectionChanged (t : ResultTab) (selection : ViewSelection) : ResultTab :=
  { t with selection := selection.within t.model.results.length }.updateAnchor

def anchorToggled (t : ResultTab) (on : Bool) : ResultTab :=
  { t with anchorCheck := on }.updateAnchor

def setResults (t : ResultTab) (results : List SearchResult) : ResultTab :=
  let (model, signal) := t.model.setResults results
  { t with
    model
    selection := t.selection.notified signal }

inductive Event
  | selectionChanged (selection : ViewSelection)
  | anchorToggled (on : Bool)
  | setResults (results : List SearchResult)
deriving DecidableEq

def step (t : ResultTab) : Event → ResultTab
  | .selectionChanged selection => t.selectionChanged selection
  | .anchorToggled on => t.anchorToggled on
  | .setResults results => t.setResults results

/-- A new tab, in which nothing is selected yet. -/
def start (anchorCheck : Bool) (sortOrder : SortOrder) : ResultTab :=
  { anchorCheck, proxy := { anchorEnabled := anchorCheck, sortOrder } }

/-- With anchoring enabled every anchored row holds the result that was anchored. -/
def Denotes (t : ResultTab) : Prop :=
  t.proxy.anchorEnabled = true → ∀ row ∈ t.proxy.anchored,
    t.model.results[row]?.map (·.hash) = t.anchoredFrom[row]?.map (·.hash)

instance decidableDenotes (t : ResultTab) : Decidable t.Denotes :=
  inferInstanceAs (Decidable (t.proxy.anchorEnabled = true → ∀ row ∈ t.proxy.anchored,
    t.model.results[row]?.map (·.hash) = t.anchoredFrom[row]?.map (·.hash)))

/-- A refresh with another layout leaves the results of the anchored rows where they are. -/
def Keeps (t : ResultTab) : Event → Prop
  | .setResults results => t.model.sameLayout results = false → t.proxy.anchorEnabled = true →
      ∀ row ∈ t.proxy.anchored,
        results[row]?.map (·.hash) = t.model.results[row]?.map (·.hash)
  | _ => True

theorem denotes_updateAnchor (t : ResultTab) : t.updateAnchor.Denotes := fun _ _ _ => rfl

theorem results_setResults (t : ResultTab) (results : List SearchResult) :
    (t.setResults results).model.results = results := SearchResultModel.results_setResults _ _

/-- Anchoring again is always right; a refresh is right exactly if it keeps the anchored rows. -/
theorem denotes_step_iff (t : ResultTab) (ev : Event) (ht : t.Denotes) :
    (t.step ev).Denotes ↔ t.Keeps ev := by
  cases ev with
  | selectionChanged selection => exact iff_of_true (denotes_updateAnchor _) trivial
  | anchorToggled on => exact iff_of_true (denotes_updateAnchor _) trivial
  | setResults results =>
    have hafter : (t.step (.setResults results)).Denotes ↔ (t.proxy.anchorEnabled = true →
        ∀ row ∈ t.proxy.anchored,
          results[row]?.map (·.hash) = t.anchoredFrom[row]?.map (·.hash)) := by
      rw [Denotes, step, results_setResults]
      rfl
    rw [hafter, Keeps]
    constructor
    · intro h _ hon row hrow
      rw [h hon row hrow, ht hon row hrow]
    · intro h hon row hrow
      rw [← ht hon row hrow]
      cases hlayout : t.model.sameLayout results with
      | true => exact getElem?_of_sameKeys hlayout row
      | false => exact h hlayout hon row hrow

/-- The anchored rows hold what was anchored throughout a run exactly if every refresh of the run
    that changes the layout keeps them. -/
theorem denotes_iff_keeps (anchorCheck : Bool) (sortOrder : SortOrder) (evs : List Event) :
    Run.Always step Denotes (start anchorCheck sortOrder) evs ↔
      Run.Along step Keeps (start anchorCheck sortOrder) evs := by
  have hstep : ∀ t ev, True → Denotes t → ((step t ev).Denotes ↔ t.Keeps ev) :=
    fun t ev _ => denotes_step_iff t ev
  refine Run.always_iff_along hstep (fun _ _ => trivial) fun _ row hrow => ?_
  exact absurd hrow (Finset.notMem_empty row)

def sampleResult (b : UInt8) : SearchResult := { hash := sampleHash b }

/-- A new result comes in before the two that are listed, of which the first is anchored. -/
def newResultFirst : List Event :=
  [.setResults [sampleResult 1, sampleResult 2], .anchorToggled true,
    .selectionChanged ⟨{0}, some 0⟩,
    .setResults [sampleResult 3, sampleResult 1, sampleResult 2]]

/-- The new result is floated to the top in place of the anchored one. -/
theorem floats_new_result :
    ¬Run.Always step Denotes (start false .descending) newResultFirst ∧
      let t := newResultFirst.foldl step (start false .descending)
      (t.proxy.sorted (fun _ _ => false) [1, 0, 2]).head? = some 0 ∧
        t.model.results[0]? = some (sampleResult 3) := by
  refine ⟨?_, ?_, ?_⟩
  · decide +kernel
  · decide +kernel
  · rfl

end ResultTab

end Amule
