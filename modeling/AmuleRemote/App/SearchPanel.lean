import AmuleRemote.Model

/-!
# The search panel's tabs

The part of `searchpanel.cpp` that opens and closes result tabs and stores
results. Every search gets a tab of its own. The most recent tab is live: the
results that arrive are stored into it, until it is closed.

A tab is known by the number of its search; `source` keeps the number of the
search that its stored results came from, which the program does not know.
-/

namespace Amule

structure SearchTab where
  number : ℕ
  baseLabel : QString
  text : QString
  results : List SearchResult := []
  source : Option ℕ := none

structure SearchPanel where
  tabs : List SearchTab := []
  /-- how many tabs were opened so far -/
  opened : ℕ := 0
  /-- `liveView_` and `liveModel_`, which are set and cleared together -/
  live : Option ℕ := none

namespace SearchPanel

def makeResultTab (panel : SearchPanel) (label : QString) : SearchPanel :=
  { panel with
    tabs := panel.tabs ++ [{ number := panel.opened + 1, baseLabel := label, text := label }]
    opened := panel.opened + 1 }

/-- A query of nothing but white space is dropped. -/
def onSearch (panel : SearchPanel) (query : QString) (kind : SearchKind) (fileType : QString) :
    SearchPanel × Option SearchParams :=
  let text := query.trimmed
  if text = [] then (panel, none)
  else
    -- the new tab becomes the live one
    let panel := panel.makeResultTab text
    ({ panel with live := some panel.opened }, some { text, kind, fileType })

def setResults (panel : SearchPanel) (results : List SearchResult) (source : ℕ) : SearchPanel :=
  match panel.live with
  | none => panel
  | some live =>
    let store (tab : SearchTab) : SearchTab :=
      if tab.number = live then
        { tab with
          results
          source := some source
          text := ((QString.lit "%1 (%2)").arg tab.baseLabel).arg (.number results.length) }
      else tab
    { panel with tabs := panel.tabs.map store }

/-- Closing the live tab stops the search. -/
def onTabClose (panel : SearchPanel) (index : ℕ) : SearchPanel × Bool :=
  let page := panel.tabs[index]?
  let panel' := { panel with tabs := panel.tabs.eraseIdx index }
  if page.isSome && page.map (·.number) = panel.live then ({ panel' with live := none }, true)
  else (panel', false)

end SearchPanel

end Amule
