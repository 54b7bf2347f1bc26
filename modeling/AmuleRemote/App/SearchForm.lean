import AmuleRemote.App.GlobFilter
import AmuleRemote.App.PreferencesPanel
import AmuleRemote.App.SavedSearches
import AmuleRemote.App.SearchPanel

/-!
# The search panel's form

The widgets of `searchpanel.cpp` and what their signals do. A widget signals when its
value changes, also when the program changes it; the handlers filter the current tab
anew, and those of the glob and regex boxes uncheck the other box first. Presets are
made of the form and put back into it, and are written to a file whenever they change.

The environment of a run is the user and Qt: which widgets are used, which tab Qt
makes the current one when the current one is closed, and whether files can be
written.

## Main results

- `SearchView.form_governs` — in every run, glob and regex are never both checked, and
  the rows of the tab that is looked at are those that the form's filter accepts
-/

namespace Amule

/-- The check boxes of the filter row. -/
inductive FilterBox
  | neg
  | glob
  | regex
  | onlyComplete
deriving DecidableEq

/-- What a box excludes when it is checked. -/
def FilterBox.excludes : FilterBox → Option FilterBox
  | .glob => some .regex
  | .regex => some .glob
  | _ => none

theorem QLineEdit.short_nil : ([] : QString).length ≤ maxLength := Nat.zero_le _

theorem QComboBox.selected_none : (-1 : ℤ) = -1 ∨ 0 ≤ (-1 : ℤ) ∧ (-1 : ℤ) < (0 : ℕ) := .inl rfl

theorem QComboBox.selected_network : (0 : ℤ) = -1 ∨ 0 ≤ (0 : ℤ) ∧ (0 : ℤ) < (3 : ℕ) := by decide

theorem QComboBox.selected_type : (0 : ℤ) = -1 ∨ 0 ≤ (0 : ℤ) ∧ (0 : ℤ) < (7 : ℕ) := by decide

theorem QSpinBox.inRange_sources : (0 : ℤ) ≤ 0 ∧ (0 : ℤ) ≤ 1000000 := by decide

theorem QComboBox.item_network : 3 = 3 ∧ (0 : ℤ) ≤ 0 := by decide

theorem QComboBox.item_type : 7 = 7 ∧ (0 : ℤ) ≤ 0 := by decide

theorem QSpinBox.range_sources : (0 : ℤ) = 0 ∧ (1000000 : ℤ) = 1000000 := ⟨rfl, rfl⟩

/-- What the user enters. The combo boxes have an item selected at all times. -/
@[ext]
structure SearchForm where
  queryEdit : QLineEdit := ⟨[], QLineEdit.short_nil⟩
  networkCombo : QComboBox := ⟨3, 0, QComboBox.selected_network⟩
  typeCombo : QComboBox := ⟨7, 0, QComboBox.selected_type⟩
  filterEdit : QLineEdit := ⟨[], QLineEdit.short_nil⟩
  checks : FilterBox → QCheckBox := fun _ => false
  minSrcSpin : QSpinBox := ⟨0, 1000000, 0, QSpinBox.inRange_sources⟩
  maxSrcSpin : QSpinBox := ⟨0, 1000000, 0, QSpinBox.inRange_sources⟩
  network_selected : networkCombo.count = 3 ∧ 0 ≤ networkCombo.currentIndex := by
    exact QComboBox.item_network
  type_selected : typeCombo.count = 7 ∧ 0 ≤ typeCombo.currentIndex := by
    exact QComboBox.item_type
  min_range : minSrcSpin.minimum = 0 ∧ minSrcSpin.maximum = 1000000 := by
    exact QSpinBox.range_sources
  max_range : maxSrcSpin.minimum = 0 ∧ maxSrcSpin.maximum = 1000000 := by
    exact QSpinBox.range_sources

theorem QLineEdit.eq_of_text : {a b : QLineEdit} → a.text = b.text → a = b
  | ⟨_, _⟩, ⟨_, _⟩, rfl => rfl

theorem QSpinBox.eq_of_value : {a b : QSpinBox} → a.minimum = b.minimum →
    a.maximum = b.maximum → a.value = b.value → a = b
  | ⟨_, _, _, _⟩, ⟨_, _, _, _⟩, rfl, rfl, rfl => rfl

theorem QComboBox.selected_setCurrentIndex {box : QComboBox} {count : ℕ} {index : ℤ}
    (hbox : box.count = count ∧ 0 ≤ box.currentIndex) (h : 0 ≤ index ∧ index < count) :
    (box.setCurrentIndex index).count = count ∧ 0 ≤ (box.setCurrentIndex index).currentIndex := by
  refine ⟨hbox.1, ?_⟩
  rw [QComboBox.currentIndex_setCurrentIndex, hbox.1, if_pos h]
  exact h.1

namespace SearchForm

def setNetwork (form : SearchForm) (index : ℤ) (h : 0 ≤ index ∧ index < 3) : SearchForm :=
  { form with
    networkCombo := form.networkCombo.setCurrentIndex index
    network_selected := QComboBox.selected_setCurrentIndex form.network_selected h }

def setType (form : SearchForm) (index : ℤ) (h : 0 ≤ index ∧ index < 7) : SearchForm :=
  { form with
    typeCombo := form.typeCombo.setCurrentIndex index
    type_selected := QComboBox.selected_setCurrentIndex form.type_selected h }

def check (form : SearchForm) (box : FilterBox) (on : Bool) : SearchForm :=
  { form with checks := Function.update form.checks box on }

def setMin (form : SearchForm) (v : ℤ) : SearchForm :=
  { form with minSrcSpin := form.minSrcSpin.setValue v, min_range := form.min_range }

def setMax (form : SearchForm) (v : ℤ) : SearchForm :=
  { form with maxSrcSpin := form.maxSrcSpin.setValue v, max_range := form.max_range }

def currentFilter (form : SearchForm) : SearchFilter where
  text := form.filterEdit.text
  negate := form.checks .neg
  glob := form.checks .glob
  regex := form.checks .regex
  onlyComplete := form.checks .onlyComplete
  minSources := .ofInt form.minSrcSpin.value
  maxSources := .ofInt form.maxSrcSpin.value

/-- `networkCombo_->currentData()` -/
def kind (form : SearchForm) : SearchKind :=
  [SearchKind.global, .kad, .local].getD form.networkCombo.currentIndex.toNat .global

/-- `typeCombo_->currentData()` -/
def fileType (form : SearchForm) : QString :=
  (["", "Audio", "Video", "Image", "Doc", "Pro", "Arc"].map QString.lit).getD
    form.typeCombo.currentIndex.toNat []

/-- What `onSaveSearch` makes of the form. -/
def preset (form : SearchForm) : SavedSearch where
  text := form.queryEdit.text
  kindIndex := .ofInt form.networkCombo.currentIndex
  typeIndex := .ofInt form.typeCombo.currentIndex
  filterText := form.filterEdit.text
  filterNegate := form.checks .neg
  filterGlob := form.checks .glob
  filterRegex := form.checks .regex
  onlyComplete := form.checks .onlyComplete
  minSources := .ofInt form.minSrcSpin.value
  maxSources := .ofInt form.maxSrcSpin.value

/-- Not both ways to read the text are chosen. -/
def Exclusive (form : SearchForm) : Prop := ¬(form.checks .glob = true ∧ form.checks .regex = true)

/-- The boxes after one is set. It excludes another only when it was not checked before. -/
def toggle (checks : FilterBox → QCheckBox) (box : FilterBox) (on : Bool) :
    FilterBox → QCheckBox :=
  if on = false then Function.update checks box false
  else if checks box = true then checks
  else match box.excludes with
    | none => Function.update checks box true
    | some other => Function.update (Function.update checks box true) other false

section toggle

variable (checks : FilterBox → QCheckBox) (box : FilterBox) (on : Bool)

theorem toggle_self : toggle checks box on box = on := by
  rw [toggle]
  split
  · next h => rw [Function.update_self, h]
  · next h =>
    rw [Bool.not_eq_false] at h
    rw [h]
    split
    · assumption
    · cases box <;> rfl

/-- Another box stays as it is unless it is excluded. -/
theorem toggle_of_ne {box' : FilterBox} (hne : box' ≠ box)
    (hother : on = false ∨ box.excludes ≠ some box') :
    toggle checks box on box' = checks box' := by
  rw [toggle]
  split
  · exact Function.update_of_ne hne _ _
  · next hon =>
    split
    · rfl
    · cases hexcludes : box.excludes with
      | none => exact Function.update_of_ne hne _ _
      | some other =>
        have hne' : box' ≠ other := fun heq => hother.resolve_left hon (heq ▸ hexcludes)
        exact (Function.update_of_ne hne' _ _).trans (Function.update_of_ne hne _ _)

/-- What is excluded is not checked by it. -/
theorem toggle_excluded {box' : FilterBox} (hexcludes : box.excludes = some box')
    (h : ¬(checks box = true ∧ checks box' = true)) :
    ¬(toggle checks box on box = true ∧ toggle checks box on box' = true) := by
  have hne : box' ≠ box := by
    rintro rfl
    cases box' <;> cases hexcludes
  rw [toggle_self]
  rintro ⟨rfl, hchecked⟩
  -- a box that is already checked does not signal, and excludes nothing
  simp only [toggle, hexcludes, Bool.true_eq_false, if_false] at hchecked
  split at hchecked
  · next hbefore => exact h ⟨hbefore, hchecked⟩
  · rw [Function.update_self] at hchecked
    cases hchecked

end toggle

def toggled (form : SearchForm) (box : FilterBox) (on : Bool) : SearchForm :=
  { form with checks := toggle form.checks box on }

theorem check_self (form : SearchForm) (box : FilterBox) :
    form.check box (form.checks box) = form := by
  rw [check, Function.update_eq_self]

theorem Exclusive.toggled {form : SearchForm} (h : form.Exclusive) (box : FilterBox) (on : Bool) :
    (form.toggled box on).Exclusive := by
  have hother : ∀ box', box' ≠ box → box.excludes = none →
      toggle form.checks box on box' = form.checks box' :=
    fun box' hne hnone => toggle_of_ne _ _ _ hne (.inr (by simp [hnone]))
  cases box with
  | glob => exact toggle_excluded _ _ _ rfl h
  | regex =>
    intro hboth
    exact toggle_excluded _ _ _ rfl (fun hbefore => h hbefore.symm) hboth.symm
  | neg | onlyComplete =>
    rintro ⟨hglob, hregex⟩
    exact h ⟨(hother _ (by decide) rfl).symm.trans hglob,
      (hother _ (by decide) rfl).symm.trans hregex⟩

/-- `std::clamp(index, 0, count - 1)` -/
def clamp (index : Int32) (count : ℕ) : ℤ := max 0 (min index.toInt (count - 1))

theorem clamp_item (index : Int32) {count : ℕ} (h : 0 < count) :
    0 ≤ clamp index count ∧ clamp index count < count := by
  rw [clamp]
  omega

/-- What loading a preset does to the widgets of the query row, which have no handlers. -/
def setQueryRow (form : SearchForm) (s : SavedSearch) : SearchForm :=
  let form := { form with queryEdit := form.queryEdit.setText s.text }
  let form := form.setNetwork (clamp s.kindIndex 3) (clamp_item _ (by decide))
  form.setType (clamp s.typeIndex 7) (clamp_item _ (by decide))

end SearchForm

/-- `SearchPanel`, of which `panel` has the tabs. -/
structure SearchView where
  panel : SearchPanel := {}
  form : SearchForm := {}
  /-- the proxy of each tab, by the tab's number -/
  proxies : ℕ → ResultFilter := fun _ => {}
  /-- `tabs_->currentIndex()` -/
  current : Option ℕ := none
  saved : List SavedSearch := []
  savedCombo : QComboBox := ⟨0, -1, QComboBox.selected_none⟩
  /-- the file of `savedsearches.cpp` -/
  file : Option QByteArray := none

namespace SearchView

def currentResultView (v : SearchView) : Option SearchTab := v.current.bind (v.panel.tabs[·]?)

section handlers

variable [RegexEngine]

def applyFilterToCurrent (v : SearchView) : SearchView :=
  match v.currentResultView with
  | none => v
  | some view =>
    { v with
      proxies := Function.update v.proxies view.number
        ((v.proxies view.number).setSearchFilter v.form.currentFilter) }

def onFilterChanged (v : SearchView) : SearchView := v.applyFilterToCurrent

def onCurrentTabChanged (v : SearchView) : SearchView := v.applyFilterToCurrent

/-! ### The widgets -/

def setFilterText (v : SearchView) (s : QString) : SearchView :=
  let edit := v.form.filterEdit.setText s
  if edit.text = v.form.filterEdit.text then v
  else { v with form.filterEdit := edit }.onFilterChanged

/-- A box is unchecked by the program or by the user; no handler does more. -/
def uncheck (v : SearchView) (box : FilterBox) : SearchView :=
  if v.form.checks box = false then v
  else { v with form := v.form.check box false }.onFilterChanged

def setChecked (v : SearchView) (box : FilterBox) (on : Bool) : SearchView :=
  if on = false then v.uncheck box
  else if v.form.checks box = true then v
  else
    let v := { v with form := v.form.check box true }
    -- glob and regex are mutually exclusive
    let v := match box.excludes with
      | none => v
      | some other => v.uncheck other
    v.onFilterChanged

def setMin (v : SearchView) (n : ℤ) : SearchView :=
  if (v.form.minSrcSpin.setValue n).value = v.form.minSrcSpin.value then v
  else { v with form := v.form.setMin n }.onFilterChanged

def setMax (v : SearchView) (n : ℤ) : SearchView :=
  if (v.form.maxSrcSpin.setValue n).value = v.form.maxSrcSpin.value then v
  else { v with form := v.form.setMax n }.onFilterChanged

/-! ### Searches and tabs -/

/-- The tab of a new search gets the form's filter before it is added and made current. -/
def onSearch (v : SearchView) : SearchView :=
  match v.panel.onSearch v.form.queryEdit.text v.form.kind v.form.fileType with
  | (_, none) => v
  | (panel, some _) =>
    { v with
      panel
      proxies := Function.update v.proxies panel.opened
        (({} : ResultFilter).setSearchFilter v.form.currentFilter)
      current := some (panel.tabs.length - 1) }.onCurrentTabChanged

/-- When the current tab is closed, Qt makes the tab `next` of the others the current one. -/
def onTabClose (v : SearchView) (index next : ℕ) : SearchView :=
  let (panel, _) := v.panel.onTabClose index
  match v.current with
  | none => { v with panel }
  | some current =>
    if v.panel.tabs.length ≤ index then v
    else if index = current then
      { v with
        panel
        current := if panel.tabs = [] then none else some (min next (panel.tabs.length - 1))
      }.onCurrentTabChanged
    else if index < current then
      { v with panel, current := some (current - 1) }.onCurrentTabChanged
    else { v with panel }

def selectTab (v : SearchView) (index : ℕ) : SearchView :=
  if v.panel.tabs.length ≤ index ∨ v.current = some index then v
  else { v with current := some index }.onCurrentTabChanged

/-! ### Presets -/

def refreshSavedCombo (v : SearchView) : SearchView :=
  { v with
    savedCombo := {
      count := v.saved.length
      currentIndex := if v.saved = [] then -1 else 0
      selected := by
        split
        · exact .inl rfl
        · next h => exact .inr ⟨le_refl 0, by simpa using List.length_pos_iff.mpr h⟩ } }

/-- `savedCombo_->setCurrentText(name)` -/
def selectSaved (v : SearchView) (name : QString) : SearchView :=
  match v.saved.findIdx? fun e => e.name = name with
  | none => v
  | some i => { v with savedCombo := v.savedCombo.setCurrentIndex i }

/-- `saveSavedSearches(saved_)`, for a file that can be written or not. -/
def write [Qt] (v : SearchView) (writable : Bool) : SearchView :=
  if writable then { v with file := some (SavedSearch.saveSavedSearches v.saved) } else v

/-- `entered` is the name that the dialog returns, unless it is cancelled. -/
def onSaveSearch [Qt] (v : SearchView) (entered : Option QString) (writable : Bool) :
    SearchView :=
  match entered with
  | none => v
  | some name =>
    if name.trimmed = [] then v
    else
      let saved := SavedSearch.onSaveSearch v.saved entered v.form.preset
      (({ v with saved }.write writable).refreshSavedCombo).selectSaved name.trimmed

/-- `saved_.at(savedCombo_->currentIndex())`, where that is a preset. -/
def chosen (v : SearchView) : Option SavedSearch :=
  if 0 ≤ v.savedCombo.currentIndex then v.saved[v.savedCombo.currentIndex.toNat]? else none

def setQueryRow (v : SearchView) (s : SavedSearch) : SearchView :=
  { v with form := v.form.setQueryRow s }

/-- A preset is put into the widgets, one after the other. -/
def fill (v : SearchView) (s : SavedSearch) : SearchView :=
  let v := v.setQueryRow s
  let v := v.setFilterText s.filterText
  let v := v.setChecked .neg s.filterNegate
  let v := v.setChecked .glob s.filterGlob
  let v := v.setChecked .regex s.filterRegex
  let v := v.setChecked .onlyComplete s.onlyComplete
  let v := v.setMin (Amule.toInt s.minSources)
  v.setMax (Amule.toInt s.maxSources)

def onLoadSaved (v : SearchView) : SearchView :=
  match v.chosen with
  | none => v
  | some s => (v.fill s).onSearch

def onDeleteSaved [Qt] (v : SearchView) (writable : Bool) : SearchView :=
  match v.chosen with
  | none => v
  | some _ =>
    let saved := v.saved.eraseIdx v.savedCombo.currentIndex.toNat
    ({ v with saved }.write writable).refreshSavedCombo

/-- The constructor, when the program is started again. -/
def restart [Qt] (v : SearchView) : SearchView :=
  { file := v.file, saved := SavedSearch.loadSavedSearches v.file : SearchView }.refreshSavedCombo

/-- What happens to the panel. -/
inductive Event
  | typeQuery (edit : QLineEdit)
  | chooseNetwork (index : Fin 3)
  | chooseType (index : Fin 7)
  | typeFilter (edit : QLineEdit)
  | click (box : FilterBox)
  | spinMin (n : ℤ)
  | spinMax (n : ℤ)
  | search
  | results (results : List SearchResult) (source : ℕ)
  | closeTab (index next : ℕ)
  | selectTab (index : ℕ)
  | chooseSaved (index : ℕ)
  | save (entered : Option QString) (writable : Bool)
  | load
  | delete (writable : Bool)
  | restart

def step [Qt] (v : SearchView) : Event → SearchView
  | .typeQuery edit => { v with form.queryEdit := edit }
  | .chooseNetwork index => { v with form := v.form.setNetwork index (by omega) }
  | .chooseType index => { v with form := v.form.setType index (by omega) }
  | .typeFilter edit => v.setFilterText edit.text
  | .click box => v.setChecked box (!v.form.checks box)
  | .spinMin n => v.setMin n
  | .spinMax n => v.setMax n
  | .search => v.onSearch
  | .results results source => { v with panel := v.panel.setResults results source }
  | .closeTab index next => v.onTabClose index next
  | .selectTab index => v.selectTab index
  | .chooseSaved index => { v with savedCombo := v.savedCombo.setCurrentIndex index }
  | .save entered writable => v.onSaveSearch entered writable
  | .load => v.onLoadSaved
  | .delete writable => v.onDeleteSaved writable
  | .restart => v.restart

/-! ## What the form governs -/

/-- The views differ at most in the form and in what their tabs are filtered by. -/
structure Frame (v v' : SearchView) : Prop where
  panel : v'.panel = v.panel
  current : v'.current = v.current
  saved : v'.saved = v.saved
  savedCombo : v'.savedCombo = v.savedCombo
  file : v'.file = v.file

/-- The current tab is filtered by what the form says now. -/
def Applied (v : SearchView) : Prop :=
  ∀ view, v.currentResultView = some view →
    ∃ p : ResultFilter, v.proxies view.number = p.setSearchFilter v.form.currentFilter

/-- A tab is current if there is one. -/
def Placed (v : SearchView) : Prop :=
  v.panel.tabs = [] ∧ v.current = none ∨ ∃ i, v.current = some i ∧ i < v.panel.tabs.length

variable {v v' v'' : SearchView}

section frames

omit [RegexEngine]

theorem Frame.refl (v : SearchView) : v.Frame v := ⟨rfl, rfl, rfl, rfl, rfl⟩

theorem Frame.trans (h : v.Frame v') (h' : v'.Frame v'') : v.Frame v'' :=
  ⟨h'.panel.trans h.panel, h'.current.trans h.current, h'.saved.trans h.saved,
    h'.savedCombo.trans h.savedCombo, h'.file.trans h.file⟩

theorem frame_form (v : SearchView) (form : SearchForm) : v.Frame { v with form } :=
  ⟨rfl, rfl, rfl, rfl, rfl⟩

theorem Frame.placed (h : v.Frame v') (hv : v.Placed) : v'.Placed := by
  rw [Placed, h.panel, h.current]
  exact hv

end frames

theorem frame_applyFilterToCurrent (v : SearchView) : v.Frame v.applyFilterToCurrent := by
  rw [applyFilterToCurrent]
  split <;> exact ⟨rfl, rfl, rfl, rfl, rfl⟩

theorem form_applyFilterToCurrent (v : SearchView) : v.applyFilterToCurrent.form = v.form := by
  rw [applyFilterToCurrent]
  split <;> rfl

theorem applied_applyFilterToCurrent (v : SearchView) : v.applyFilterToCurrent.Applied := by
  intro view hview
  have hframe := v.frame_applyFilterToCurrent
  rw [currentResultView, hframe.panel, hframe.current] at hview
  have hcurrent : v.currentResultView = some view := hview
  refine ⟨v.proxies view.number, ?_⟩
  simp only [applyFilterToCurrent, hcurrent, Function.update_self]

/-- Widgets of the form change, one after the other, and tell their handlers. -/
structure Edits (v v' : SearchView) : Prop where
  frame : v.Frame v'
  applied : v.Applied → v'.Applied

theorem Edits.refl (v : SearchView) : v.Edits v := ⟨.refl v, id⟩

theorem Edits.trans (h : v.Edits v') (h' : v'.Edits v'') : v.Edits v'' :=
  ⟨h.frame.trans h'.frame, h'.applied ∘ h.applied⟩

theorem edits_onFilterChanged (v : SearchView) (form : SearchForm) :
    v.Edits { v with form }.onFilterChanged where
  frame := (v.frame_form form).trans (frame_applyFilterToCurrent { v with form })
  applied _ := applied_applyFilterToCurrent _

theorem edits_setFilterText (v : SearchView) (s : QString) : v.Edits (v.setFilterText s) := by
  simp only [setFilterText]
  split
  · exact .refl v
  · exact v.edits_onFilterChanged _

theorem edits_setMin (v : SearchView) (n : ℤ) : v.Edits (v.setMin n) := by
  rw [setMin]
  split
  · exact .refl v
  · exact v.edits_onFilterChanged _

theorem edits_setMax (v : SearchView) (n : ℤ) : v.Edits (v.setMax n) := by
  rw [setMax]
  split
  · exact .refl v
  · exact v.edits_onFilterChanged _

theorem edits_uncheck (v : SearchView) (box : FilterBox) : v.Edits (v.uncheck box) := by
  rw [uncheck]
  split
  · exact .refl v
  · exact v.edits_onFilterChanged _

theorem edits_setChecked (v : SearchView) (box : FilterBox) (on : Bool) :
    v.Edits (v.setChecked box on) := by
  rw [setChecked]
  split
  · exact v.edits_uncheck box
  · split
    · exact .refl v
    · -- the box's own handler comes last, and filters by the form as it is then
      refine ⟨.trans ?_ (frame_applyFilterToCurrent _), fun _ => applied_applyFilterToCurrent _⟩
      have hchecked := v.frame_form (v.form.check box true)
      cases box.excludes with
      | none => exact hchecked
      | some other => exact hchecked.trans (edits_uncheck _ other).frame

theorem form_uncheck (v : SearchView) (box : FilterBox) :
    (v.uncheck box).form = v.form.check box false := by
  rw [uncheck]
  split
  · next h =>
    rw [← h]
    exact (v.form.check_self box).symm
  · exact form_applyFilterToCurrent _

theorem form_setChecked (v : SearchView) (box : FilterBox) (on : Bool) :
    (v.setChecked box on).form = v.form.toggled box on := by
  rw [setChecked, SearchForm.toggled, SearchForm.toggle]
  split
  · exact v.form_uncheck box
  · split
    · rfl
    · refine (form_applyFilterToCurrent _).trans ?_
      cases box.excludes with
      | none => rfl
      | some other => exact form_uncheck _ other

theorem form_setFilterText (v : SearchView) (s : QString) :
    (v.setFilterText s).form = { v.form with filterEdit := v.form.filterEdit.setText s } := by
  simp only [setFilterText]
  split
  · next h => rw [QLineEdit.eq_of_text h]
  · exact form_applyFilterToCurrent _

theorem form_setMin (v : SearchView) (n : ℤ) : (v.setMin n).form = v.form.setMin n := by
  rw [setMin]
  split
  · next h =>
    have hsame : v.form.minSrcSpin.setValue n = v.form.minSrcSpin :=
      QSpinBox.eq_of_value rfl rfl h
    simp only [SearchForm.setMin, hsame]
  · exact form_applyFilterToCurrent _

theorem form_setMax (v : SearchView) (n : ℤ) : (v.setMax n).form = v.form.setMax n := by
  rw [setMax]
  split
  · next h =>
    have hsame : v.form.maxSrcSpin.setValue n = v.form.maxSrcSpin :=
      QSpinBox.eq_of_value rfl rfl h
    simp only [SearchForm.setMax, hsame]
  · exact form_applyFilterToCurrent _

/-! ### Every event -/

/-- What holds between any two events. -/
structure Governed (v : SearchView) : Prop where
  placed : v.Placed
  applied : v.Applied
  exclusive : v.form.Exclusive

/-- The presets and the widgets of the query row do not matter. -/
theorem Governed.congr (h : v.Governed) (hpanel : v'.panel = v.panel)
    (hcurrent : v'.current = v.current) (hproxies : v'.proxies = v.proxies)
    (hfilter : v'.form.currentFilter = v.form.currentFilter)
    (hexclusive : v'.form.Exclusive) : v'.Governed where
  placed := by
    rw [Placed, hpanel, hcurrent]
    exact h.placed
  applied := by
    rw [Applied, currentResultView, hpanel, hcurrent, hproxies, hfilter]
    exact h.applied
  exclusive := hexclusive

theorem Edits.governed (h : v.Edits v') (hv : v.Governed) (hexclusive : v'.form.Exclusive) :
    v'.Governed :=
  ⟨h.frame.placed hv.placed, h.applied hv.applied, hexclusive⟩

/-- After the tabs or the current one have changed, the current one is filtered. -/
theorem governed_onCurrentTabChanged (hplaced : v.Placed) (hexclusive : v.form.Exclusive) :
    v.onCurrentTabChanged.Governed where
  placed := v.frame_applyFilterToCurrent.placed hplaced
  applied := v.applied_applyFilterToCurrent
  exclusive := v.form_applyFilterToCurrent.symm ▸ hexclusive

theorem Governed.onSearch (h : v.Governed) : v.onSearch.Governed := by
  rw [SearchView.onSearch]
  split
  · exact h
  · next panel params hsearch =>
    have hopened : panel.tabs ≠ [] := by
      rw [SearchPanel.onSearch] at hsearch
      split at hsearch
      · cases hsearch
      · cases hsearch
        exact List.concat_ne_nil _ _
    refine governed_onCurrentTabChanged (.inr ⟨_, rfl, ?_⟩) h.exclusive
    exact Nat.sub_lt (List.length_pos_iff.mpr hopened) Nat.one_pos

theorem Governed.selectTab (h : v.Governed) (index : ℕ) : (v.selectTab index).Governed := by
  rw [SearchView.selectTab]
  split
  · exact h
  · next hindex =>
    refine governed_onCurrentTabChanged (.inr ⟨index, rfl, ?_⟩) h.exclusive
    exact Nat.lt_of_not_le fun hle => hindex (.inl hle)

omit [RegexEngine] in
theorem tabs_onTabClose (panel : SearchPanel) (index : ℕ) :
    (panel.onTabClose index).1.tabs = panel.tabs.eraseIdx index := by
  rw [SearchPanel.onTabClose]
  split <;> rfl

theorem Governed.onTabClose (h : v.Governed) (index next : ℕ) :
    (v.onTabClose index next).Governed := by
  have htabs := tabs_onTabClose v.panel index
  simp only [SearchView.onTabClose]
  generalize (v.panel.onTabClose index).1 = panel at htabs
  rcases h.placed with ⟨hnil, hnone⟩ | ⟨current, hcurrent, hlt⟩
  · simp only [hnone]
    refine ⟨.inl ⟨?_, rfl⟩, fun view hview => ?_, h.exclusive⟩
    · rw [htabs, hnil, List.eraseIdx_nil]
    · cases hview
  · simp only [hcurrent]
    split
    · exact h
    · next hindex =>
      have hlength : panel.tabs.length = v.panel.tabs.length - 1 := by
        rw [htabs, List.length_eraseIdx_of_lt (Nat.lt_of_not_le hindex)]
      split
      · -- the current tab is closed, and was perhaps the only one
        refine governed_onCurrentTabChanged ?_ h.exclusive
        by_cases hempty : panel.tabs = []
        · exact .inl ⟨hempty, if_pos hempty⟩
        · have hpos := List.length_pos_iff.mpr hempty
          refine .inr ⟨_, if_neg hempty, ?_⟩
          show min next (panel.tabs.length - 1) < panel.tabs.length
          omega
      · next hne =>
        split
        · refine governed_onCurrentTabChanged (.inr ⟨_, rfl, ?_⟩) h.exclusive
          show current - 1 < panel.tabs.length
          omega
        · -- a tab behind the current one is closed, which stays where it is
          next hbehind =>
          have hsame : { v with panel, current := some current }.currentResultView =
              v.currentResultView := by
            simp only [currentResultView, hcurrent, Option.bind_some, htabs]
            exact List.getElem?_eraseIdx_of_lt (by omega)
          refine ⟨.inr ⟨current, rfl, ?_⟩, fun view hview => ?_, h.exclusive⟩
          · show current < panel.tabs.length
            omega
          · exact h.applied view (hsame.symm.trans hview)

omit [RegexEngine] in
/-- Results change no tab's number. -/
theorem number_setResults (panel : SearchPanel) (results : List SearchResult) (source i : ℕ) :
    (panel.setResults results source).tabs[i]?.map (·.number) =
      panel.tabs[i]?.map (·.number) := by
  rw [SearchPanel.setResults]
  cases panel.live with
  | none => rfl
  | some live =>
    rw [List.getElem?_map, Option.map_map]
    congr 1
    funext tab
    dsimp only [Function.comp]
    split <;> rfl

theorem Governed.results (h : v.Governed) (results : List SearchResult) (source : ℕ) :
    { v with panel := v.panel.setResults results source }.Governed := by
  have hlength : (v.panel.setResults results source).tabs.length = v.panel.tabs.length := by
    rw [SearchPanel.setResults]
    cases v.panel.live with
    | none => rfl
    | some live => exact List.length_map _
  refine ⟨?_, fun view hview => ?_, h.exclusive⟩
  · have hplaced := h.placed
    simp only [Placed, ← List.length_eq_zero_iff, hlength] at hplaced ⊢
    exact hplaced
  · obtain ⟨i, hi, hget⟩ := Option.bind_eq_some_iff.mp hview
    have hnumber := number_setResults v.panel results source i
    rw [hget, Option.map_some] at hnumber
    obtain ⟨tab, htab, heq⟩ := Option.map_eq_some_iff.mp hnumber.symm
    have hcurrent : v.currentResultView = some tab := Option.bind_eq_some_iff.mpr ⟨i, hi, htab⟩
    rw [← heq]
    exact h.applied tab hcurrent

theorem Governed.setFilterText (h : v.Governed) (s : QString) : (v.setFilterText s).Governed :=
  (v.edits_setFilterText s).governed h (v.form_setFilterText s ▸ h.exclusive)

theorem Governed.setChecked (h : v.Governed) (box : FilterBox) (on : Bool) :
    (v.setChecked box on).Governed :=
  (v.edits_setChecked box on).governed h (v.form_setChecked box on ▸ h.exclusive.toggled box on)

theorem Governed.setMin (h : v.Governed) (n : ℤ) : (v.setMin n).Governed :=
  (v.edits_setMin n).governed h (v.form_setMin n ▸ h.exclusive)

theorem Governed.setMax (h : v.Governed) (n : ℤ) : (v.setMax n).Governed :=
  (v.edits_setMax n).governed h (v.form_setMax n ▸ h.exclusive)

theorem Governed.fill (h : v.Governed) (s : SavedSearch) : (v.fill s).Governed := by
  have hquery : (v.setQueryRow s).Governed := h.congr rfl rfl rfl rfl h.exclusive
  have hchecks := ((((hquery.setFilterText s.filterText).setChecked .neg s.filterNegate).setChecked
    .glob s.filterGlob).setChecked .regex s.filterRegex).setChecked .onlyComplete s.onlyComplete
  exact (hchecks.setMin _).setMax _

theorem Governed.onLoadSaved (h : v.Governed) : v.onLoadSaved.Governed := by
  rw [SearchView.onLoadSaved]
  split
  · exact h
  · next s _ => exact (h.fill s).onSearch

section presets

variable [Qt]

theorem Governed.onSaveSearch (h : v.Governed) (entered : Option QString) (writable : Bool) :
    (v.onSaveSearch entered writable).Governed := by
  simp only [SearchView.onSaveSearch]
  split
  · exact h
  · split
    · exact h
    · rw [selectSaved, write]
      split <;> split <;> exact h.congr rfl rfl rfl rfl h.exclusive

theorem Governed.onDeleteSaved (h : v.Governed) (writable : Bool) :
    (v.onDeleteSaved writable).Governed := by
  simp only [SearchView.onDeleteSaved]
  split
  · exact h
  · rw [write]
    split <;> exact h.congr rfl rfl rfl rfl h.exclusive

omit [RegexEngine] [Qt] in
theorem exclusive_start : ({} : SearchForm).Exclusive := fun h => Bool.false_ne_true h.1

omit [Qt] in
theorem governed_start : ({} : SearchView).Governed :=
  ⟨.inl ⟨rfl, rfl⟩, (by intro _ h; cases h), exclusive_start⟩

theorem Governed.step (h : v.Governed) (event : Event) : (v.step event).Governed := by
  cases event with
  | typeQuery edit => exact h.congr rfl rfl rfl rfl h.exclusive
  | chooseNetwork index => exact h.congr rfl rfl rfl rfl h.exclusive
  | chooseType index => exact h.congr rfl rfl rfl rfl h.exclusive
  | typeFilter edit => exact h.setFilterText edit.text
  | click box => exact h.setChecked box _
  | spinMin n => exact h.setMin n
  | spinMax n => exact h.setMax n
  | search => exact h.onSearch
  | results results source => exact h.results results source
  | closeTab index next => exact h.onTabClose index next
  | selectTab index => exact h.selectTab index
  | chooseSaved index => exact h.congr rfl rfl rfl rfl h.exclusive
  | save entered writable => exact h.onSaveSearch entered writable
  | load => exact h.onLoadSaved
  | delete writable => exact h.onDeleteSaved writable
  | restart => exact governed_start.congr rfl rfl rfl rfl exclusive_start

theorem governed_run (events : List Event) : (events.foldl step {}).Governed :=
  List.foldlRecOn events step governed_start fun _ hv event _ => hv.step event

omit [Qt] in
/-- Which rows a proxy accepts depends on the filter that it was given last. -/
theorem filterAcceptsRow_setSearchFilter (p p' : ResultFilter) (filter : SearchFilter)
    (model : Option SearchResultModel) (row : ℕ) :
    (p.setSearchFilter filter).filterAcceptsRow model row =
      (p'.setSearchFilter filter).filterAcceptsRow model row := by
  simp only [ResultFilter.setSearchFilter]
  split
  · rfl
  · rfl

/-- In every run, glob and regex are not both checked, a tab is looked at if there is one, and
    its rows are filtered as a new tab's would be, whatever it was filtered by before. -/
theorem form_governs (events : List Event) :
    (events.foldl step {}).form.Exclusive ∧
    ((events.foldl step {}).panel.tabs ≠ [] → (events.foldl step {}).currentResultView ≠ none) ∧
    ∀ view, (events.foldl step {}).currentResultView = some view → ∀ row,
      ((events.foldl step {}).proxies view.number).filterAcceptsRow (some ⟨view.results⟩) row =
        (({} : ResultFilter).setSearchFilter (events.foldl step {}).form.currentFilter
          ).filterAcceptsRow (some ⟨view.results⟩) row := by
  have hrun := governed_run events
  refine ⟨hrun.exclusive, fun hne => ?_, fun view hview row => ?_⟩
  · rcases hrun.placed with ⟨hnil, -⟩ | ⟨i, hi, hlt⟩
    · exact absurd hnil hne
    · rw [currentResultView, hi, Option.bind_some, List.getElem?_eq_getElem hlt]
      exact Option.some_ne_none _
  · obtain ⟨p, hp⟩ := hrun.applied view hview
    rw [hp]
    exact filterAcceptsRow_setSearchFilter p {} _ _ row

end presets

end handlers

end SearchView

end Amule
