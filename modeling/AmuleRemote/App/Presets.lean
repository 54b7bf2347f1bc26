import AmuleRemote.App.SearchForm
import AmuleRemote.Lib.Run

/-!
# Presets across runs

A preset is made of the form, kept in a list and in a file, and put back into the
form. The file takes the separators out of its texts, so that after a restart a preset
comes back cleaned; but it comes back, unless it is deleted or saved over.

## Main results

- `SearchForm.loaded_preset` — loading a preset makes the form that it was made of
- `SearchView.preset_restored` — so does loading it after any run that spares it, but
  for the separators in its texts
-/

namespace Amule

open SavedSearch (clean)

/-! ## Into the form -/

theorem QComboBox.eq_of_currentIndex : {a b : QComboBox} → a.count = b.count →
    a.currentIndex = b.currentIndex → a = b
  | ⟨_, _, _⟩, ⟨_, _, _⟩, rfl, rfl => rfl

/-- An item's index survives the preset, and the clamp on its way back. -/
theorem QComboBox.setCurrentIndex_clamp {box box' : QComboBox} {count : ℕ} (hsmall : count ≤ 7)
    (hbox : box.count = count) (hbox' : box'.count = count ∧ 0 ≤ box'.currentIndex) :
    box.setCurrentIndex (SearchForm.clamp (.ofInt box'.currentIndex) count) = box' := by
  obtain ⟨hcount, hpos⟩ := hbox'
  have hlt : box'.currentIndex < count := by
    rcases box'.selected with h | h
    · omega
    · omega
  have hindex : (Int32.ofInt box'.currentIndex).toInt = box'.currentIndex :=
    Int32.toInt_ofInt_of_le (by omega) (by omega)
  have hclamp : SearchForm.clamp (.ofInt box'.currentIndex) count = box'.currentIndex := by
    rw [SearchForm.clamp, hindex]
    omega
  refine QComboBox.eq_of_currentIndex (hbox.trans hcount.symm) ?_
  rw [QComboBox.currentIndex_setCurrentIndex, hclamp, hbox]
  exact if_pos ⟨hpos, hlt⟩

theorem QSpinBox.setValue_toInt {box box' : QSpinBox}
    (hbox : box.minimum = 0 ∧ box.maximum = 1000000)
    (hbox' : box'.minimum = 0 ∧ box'.maximum = 1000000) :
    box.setValue (Amule.toInt (.ofInt box'.value)) = box' := by
  obtain ⟨hmin, hmax⟩ := box'.inRange
  have hnat : ((UInt64.ofInt box'.value).toNat : ℤ) = box'.value :=
    toNat_ofInt (by omega) (by omega)
  have hvalue : Amule.toInt (.ofInt box'.value) = box'.value := by
    rw [toInt_of_lt (by omega), hnat]
  refine QSpinBox.eq_of_value (hbox.1.trans hbox'.1.symm) (hbox.2.trans hbox'.2.symm) ?_
  rw [hvalue]
  show max box.minimum (min box'.value box.maximum) = box'.value
  omega

theorem QLineEdit.setText_text (edit edit' : QLineEdit) : edit.setText edit'.text = edit' :=
  QLineEdit.eq_of_text (List.take_of_length_le edit'.short)

namespace SearchForm

/-- Setting the boxes one by one ends with all of them set, where they do not exclude each other. -/
theorem toggle_all (checks : FilterBox → QCheckBox) {checks' : FilterBox → QCheckBox}
    (h : ¬(checks' .glob = true ∧ checks' .regex = true)) :
    toggle (toggle (toggle (toggle checks .neg (checks' .neg)) .glob (checks' .glob)) .regex
      (checks' .regex)) .onlyComplete (checks' .onlyComplete) = checks' := by
  funext box
  cases box with
  | neg =>
    rw [toggle_of_ne _ _ _ (by decide) (.inr (by decide)),
      toggle_of_ne _ _ _ (by decide) (.inr (by decide)),
      toggle_of_ne _ _ _ (by decide) (.inr (by decide)), toggle_self]
  | glob =>
    rw [toggle_of_ne _ _ _ (by decide) (.inr (by decide))]
    generalize toggle checks .neg (checks' .neg) = before
    by_cases hregex : checks' .regex = true
    · -- the box of the regex is set last and excludes this one, which was not to be set
      have hglob : checks' .glob = false := Bool.eq_false_iff.mpr fun hglob => h ⟨hglob, hregex⟩
      have hbefore : toggle before .glob (checks' .glob) .glob = false := by
        rw [toggle_self, hglob]
      have hexcluded := toggle_excluded (toggle before .glob (checks' .glob)) .regex
        (checks' .regex) rfl fun hboth => Bool.false_ne_true (hbefore.symm.trans hboth.2)
      rw [toggle_self, not_and] at hexcluded
      rw [hglob]
      exact Bool.eq_false_iff.mpr (hglob ▸ hexcluded hregex)
    · rw [toggle_of_ne _ _ _ (by decide) (.inl (Bool.eq_false_iff.mpr hregex)), toggle_self]
  | regex => rw [toggle_of_ne _ _ _ (by decide) (.inr (by decide)), toggle_self]
  | onlyComplete => rw [toggle_self]

/-- The form after a preset has been loaded into it. -/
def loaded (form : SearchForm) (s : SavedSearch) : SearchForm :=
  let form := form.setQueryRow s
  let form := { form with filterEdit := form.filterEdit.setText s.filterText }
  let form := form.toggled .neg s.filterNegate
  let form := form.toggled .glob s.filterGlob
  let form := form.toggled .regex s.filterRegex
  let form := form.toggled .onlyComplete s.onlyComplete
  (form.setMin (Amule.toInt s.minSources)).setMax (Amule.toInt s.maxSources)

/-- The presets of a form, by the names that they have been given. -/
def named (form : SearchForm) (name : QString) : SavedSearch := { form.preset with name }

/-- A preset makes the form that it was made of, whatever the form was in between. -/
theorem loaded_preset (form : SearchForm) {form' : SearchForm} (h : form'.Exclusive)
    (name : QString) : form.loaded (form'.named name) = form' := by
  refine SearchForm.ext ?_ ?_ ?_ ?_ ?_ ?_ ?_
  · exact form.queryEdit.setText_text form'.queryEdit
  · exact QComboBox.setCurrentIndex_clamp (by decide) form.network_selected.1
      form'.network_selected
  · exact QComboBox.setCurrentIndex_clamp (by decide) form.type_selected.1 form'.type_selected
  · exact form.filterEdit.setText_text form'.filterEdit
  · exact toggle_all form.checks h
  · exact QSpinBox.setValue_toInt form.min_range form'.min_range
  · exact QSpinBox.setValue_toInt form.max_range form'.max_range

/-- The form with the texts that its preset has after a restart. -/
def cleaned (form : SearchForm) : SearchForm :=
  { form with
    queryEdit := form.queryEdit.setText (clean form.queryEdit.text)
    filterEdit := form.filterEdit.setText (clean form.filterEdit.text) }

theorem cleaned_named (form : SearchForm) (name : QString) :
    (form.named name).cleaned = form.cleaned.named (clean name) := by
  have hlength (edit : QLineEdit) : (edit.setText (clean edit.text)).text = clean edit.text := by
    refine List.take_of_length_le ?_
    rw [SavedSearch.clean_eq_map, List.length_map]
    exact edit.short
  simp only [named, preset, SavedSearch.cleaned, cleaned, hlength]

end SearchForm

/-! ## Through the run -/

namespace SavedSearch

variable {saved : List SavedSearch} {name : QString} {s e : SavedSearch}

/-- A preset that is saved is in the list. -/
theorem mem_onSaveSearch (hname : name.trimmed ≠ []) :
    { s with name := name.trimmed } ∈ onSaveSearch saved (some name) s := by
  simp only [onSaveSearch, if_neg hname]
  split
  · next i hi =>
    exact List.mem_set (List.findIdx?_eq_some_iff_getElem.mp hi).1 _
  · exact List.mem_append_right _ List.mem_cons_self

/-- It takes the place of no preset but one of its name. -/
theorem mem_onSaveSearch_of_mem (hmem : e ∈ saved) (hne : e.name ≠ name.trimmed) :
    e ∈ onSaveSearch saved (some name) s := by
  simp only [onSaveSearch]
  split
  · exact hmem
  · split
    · next i hi =>
      obtain ⟨hlt, heq, -⟩ := List.findIdx?_eq_some_iff_getElem.mp hi
      obtain ⟨j, hj, rfl⟩ := List.getElem_of_mem hmem
      refine List.mem_iff_getElem.mpr ⟨j, by rwa [List.length_set], ?_⟩
      refine List.getElem_set_of_ne ?_ _ _
      rintro rfl
      exact hne (of_decide_eq_true heq)
    · exact List.mem_append_left _ hmem

theorem of_mem_onSaveSearch (h : e ∈ onSaveSearch saved (some name) s) :
    e ∈ saved ∨ name.trimmed ≠ [] ∧ e = { s with name := name.trimmed } := by
  simp only [onSaveSearch] at h
  split at h
  · exact .inl h
  · next hname =>
    split at h
    · exact (List.mem_or_eq_of_mem_set h).imp_right (⟨hname, ·⟩)
    · exact (List.mem_append.mp h).imp_right fun hnew => ⟨hname, List.mem_singleton.mp hnew⟩

end SavedSearch

namespace SearchView

section handlers

variable [RegexEngine] {v v' : SearchView}

/-- Form, presets and file are as they were. -/
structure OnlyTabs (v v' : SearchView) : Prop where
  form : v'.form = v.form
  saved : v'.saved = v.saved
  savedCombo : v'.savedCombo = v.savedCombo
  file : v'.file = v.file

theorem onlyTabs_onCurrentTabChanged (v : SearchView) : v.OnlyTabs v.onCurrentTabChanged :=
  ⟨v.form_applyFilterToCurrent, v.frame_applyFilterToCurrent.saved,
    v.frame_applyFilterToCurrent.savedCombo, v.frame_applyFilterToCurrent.file⟩

theorem onlyTabs_onSearch (v : SearchView) : v.OnlyTabs v.onSearch := by
  rw [onSearch]
  split
  · exact ⟨rfl, rfl, rfl, rfl⟩
  · have h := onlyTabs_onCurrentTabChanged
    exact ⟨(h _).form, (h _).saved, (h _).savedCombo, (h _).file⟩

theorem onlyTabs_selectTab (v : SearchView) (index : ℕ) : v.OnlyTabs (v.selectTab index) := by
  rw [selectTab]
  split
  · exact ⟨rfl, rfl, rfl, rfl⟩
  · have h := onlyTabs_onCurrentTabChanged
    exact ⟨(h _).form, (h _).saved, (h _).savedCombo, (h _).file⟩

theorem onlyTabs_onTabClose (v : SearchView) (index next : ℕ) :
    v.OnlyTabs (v.onTabClose index next) := by
  have h := onlyTabs_onCurrentTabChanged
  simp only [onTabClose]
  split
  · exact ⟨rfl, rfl, rfl, rfl⟩
  · split
    · exact ⟨rfl, rfl, rfl, rfl⟩
    · split
      · exact ⟨(h _).form, (h _).saved, (h _).savedCombo, (h _).file⟩
      · split
        · exact ⟨(h _).form, (h _).saved, (h _).savedCombo, (h _).file⟩
        · exact ⟨rfl, rfl, rfl, rfl⟩

theorem form_fill (v : SearchView) (s : SavedSearch) : (v.fill s).form = v.form.loaded s := by
  simp only [fill, form_setMax, form_setMin, form_setChecked, form_setFilterText]
  rfl

theorem edits_fill (v : SearchView) (s : SavedSearch) : (v.setQueryRow s).Edits (v.fill s) :=
  (edits_setFilterText _ _).trans <| (edits_setChecked _ _ _).trans <|
    (edits_setChecked _ _ _).trans <| (edits_setChecked _ _ _).trans <|
      (edits_setChecked _ _ _).trans <| (edits_setMin _ _).trans (edits_setMax _ _)

/-- Loading leaves the presets as they are. -/
theorem presets_onLoadSaved (v : SearchView) : v.onLoadSaved.saved = v.saved ∧
    v.onLoadSaved.savedCombo = v.savedCombo ∧ v.onLoadSaved.file = v.file := by
  rw [onLoadSaved]
  split
  · exact ⟨rfl, rfl, rfl⟩
  · next s _ =>
    have hsearch := (v.fill s).onlyTabs_onSearch
    have hframe := (v.edits_fill s).frame
    exact ⟨hsearch.saved.trans hframe.saved, hsearch.savedCombo.trans hframe.savedCombo,
      hsearch.file.trans hframe.file⟩

theorem form_onLoadSaved {s : SavedSearch} (h : v.chosen = some s) :
    v.onLoadSaved.form = v.form.loaded s := by
  simp only [onLoadSaved, h]
  rw [(onlyTabs_onSearch _).form, form_fill]

/-- The texts are well-formed, and the file has the presets. -/
structure Stored [Qt] (v : SearchView) : Prop where
  query : Utf8.wellFormed v.form.queryEdit.text = true
  filter : Utf8.wellFormed v.form.filterEdit.text = true
  presets : ∀ e ∈ v.saved,
    e.Storable ∧ e.text.length ≤ maxLength ∧ e.filterText.length ≤ maxLength
  items : v.savedCombo.count = v.saved.length
  file : SavedSearch.loadSavedSearches v.file = v.saved.map SavedSearch.cleaned

/-- What is typed is well-formed, no name starts with a byte order mark, and the file can be
    written. -/
def Event.Faithful : Event → Prop
  | .typeQuery edit | .typeFilter edit => Utf8.wellFormed edit.text = true
  | .save entered writable => writable = true ∧ ∀ name ∈ entered,
    Utf8.wellFormed name.trimmed = true ∧ name.trimmed.head? ≠ some 0xFEFF
  | .delete writable => writable = true
  | _ => True

instance Event.decidableFaithful : DecidablePred Event.Faithful
  | .typeQuery _ | .typeFilter _ => inferInstanceAs (Decidable (_ = _))
  | .save _ _ => inferInstanceAs (Decidable (_ ∧ _))
  | .delete _ => inferInstanceAs (Decidable (_ = _))
  | .chooseNetwork _ | .chooseType _ | .click _ | .spinMin _ | .spinMax _ | .search | .results _ _
  | .closeTab _ _ | .selectTab _ | .chooseSaved _ | .load | .restart => .isTrue trivial

section stored

variable [Qt]

omit [RegexEngine] in
theorem Stored.congr (h : v.Stored) (hquery : v'.form.queryEdit = v.form.queryEdit)
    (hfilter : v'.form.filterEdit = v.form.filterEdit) (hsaved : v'.saved = v.saved)
    (hitems : v'.savedCombo.count = v.savedCombo.count) (hfile : v'.file = v.file) :
    v'.Stored := by
  refine ⟨hquery ▸ h.query, hfilter ▸ h.filter, hsaved ▸ h.presets, ?_, ?_⟩
  · rw [hitems, hsaved]
    exact h.items
  · rw [hfile, hsaved]
    exact h.file

theorem Edits.stored (h : v.Edits v') (hv : v.Stored)
    (hquery : v'.form.queryEdit = v.form.queryEdit)
    (hfilter : v'.form.filterEdit = v.form.filterEdit) : v'.Stored :=
  hv.congr hquery hfilter h.frame.saved (congrArg _ h.frame.savedCombo) h.frame.file

omit [RegexEngine] in
theorem OnlyTabs.stored (h : v.OnlyTabs v') (hv : v.Stored) : v'.Stored :=
  hv.congr (congrArg _ h.form) (congrArg _ h.form) h.saved (congrArg _ h.savedCombo) h.file

omit [RegexEngine] in
/-- Presets are written whenever they change. -/
theorem Stored.write [LawfulQtText] (h : v.Stored) {saved : List SavedSearch}
    (hpresets : ∀ e ∈ saved,
      e.Storable ∧ e.text.length ≤ maxLength ∧ e.filterText.length ≤ maxLength) :
    ({ v with saved }.write true).refreshSavedCombo.Stored where
  query := h.query
  filter := h.filter
  presets := hpresets
  items := rfl
  file := SavedSearch.load_saved fun e he => (hpresets e he).1

omit [RegexEngine] in
theorem Stored.onSaveSearch [LawfulQtText] (h : v.Stored) {entered : Option QString}
    (hname : ∀ name ∈ entered,
      Utf8.wellFormed name.trimmed = true ∧ name.trimmed.head? ≠ some 0xFEFF) :
    (v.onSaveSearch entered true).Stored := by
  simp only [SearchView.onSaveSearch]
  split
  · exact h
  · next name =>
    split
    · exact h
    · obtain ⟨hwf, hmark⟩ := hname name rfl
      have hpresets : ∀ e ∈ SavedSearch.onSaveSearch v.saved (some name) v.form.preset,
          e.Storable ∧ e.text.length ≤ maxLength ∧ e.filterText.length ≤ maxLength := by
        intro e he
        rcases SavedSearch.of_mem_onSaveSearch he with hold | ⟨hne, rfl⟩
        · exact h.presets e hold
        · exact ⟨⟨⟨QString.trimmed_trimmed name, hne⟩, hwf, h.query, h.filter, hmark⟩,
            v.form.queryEdit.short, v.form.filterEdit.short⟩
      have hwritten := h.write hpresets
      rw [selectSaved]
      split
      · exact hwritten
      · exact hwritten.congr rfl rfl rfl rfl rfl

omit [RegexEngine] in
theorem Stored.onDeleteSaved [LawfulQtText] (h : v.Stored) : (v.onDeleteSaved true).Stored := by
  simp only [SearchView.onDeleteSaved]
  split
  · exact h
  · have hpresets : ∀ e ∈ v.saved.eraseIdx v.savedCombo.currentIndex.toNat,
        e.Storable ∧ e.text.length ≤ maxLength ∧ e.filterText.length ≤ maxLength :=
      fun e he => h.presets e (List.mem_of_mem_eraseIdx he)
    exact h.write hpresets

theorem Stored.onLoadSaved (h : v.Stored) : v.onLoadSaved.Stored := by
  cases hchosen : v.chosen with
  | none =>
    rw [SearchView.onLoadSaved, hchosen]
    exact h
  | some s =>
    have hmem : s ∈ v.saved := by
      rw [chosen] at hchosen
      split at hchosen
      · exact List.mem_of_getElem? hchosen
      · cases hchosen
    obtain ⟨hstorable, htext, hfilter⟩ := h.presets s hmem
    obtain ⟨hsaved, hcombo, hfile⟩ := v.presets_onLoadSaved
    have hform := form_onLoadSaved hchosen
    -- the texts of the form are those of the preset now, which fit the edits
    refine ⟨?_, ?_, hsaved ▸ h.presets, ?_, ?_⟩
    · rw [hform]
      show Utf8.wellFormed (s.text.take maxLength) = true
      rw [List.take_of_length_le htext]
      exact hstorable.text
    · rw [hform]
      show Utf8.wellFormed (s.filterText.take maxLength) = true
      rw [List.take_of_length_le hfilter]
      exact hstorable.filterText
    · rw [hcombo, hsaved]
      exact h.items
    · rw [hfile, hsaved]
      exact h.file

omit [RegexEngine] in
theorem Stored.restart (h : v.Stored) : v.restart.Stored where
  query := rfl
  filter := rfl
  presets := by
    show ∀ e ∈ SavedSearch.loadSavedSearches v.file, _
    rw [h.file]
    intro e he
    obtain ⟨s, hs, rfl⟩ := List.mem_map.mp he
    obtain ⟨hstorable, htext, hfilter⟩ := h.presets s hs
    refine ⟨hstorable.cleaned, ?_, ?_⟩
    · show (clean s.text).length ≤ maxLength
      rwa [SavedSearch.clean_eq_map, List.length_map]
    · show (clean s.filterText).length ≤ maxLength
      rwa [SavedSearch.clean_eq_map, List.length_map]
  items := rfl
  file := by
    show _ = (SavedSearch.loadSavedSearches v.file).map SavedSearch.cleaned
    rw [show v.restart.file = v.file from rfl, h.file, List.map_map]
    exact List.map_congr_left fun s _ => s.cleaned_cleaned.symm

theorem Stored.step [LawfulQtText] (h : v.Stored) {event : Event} (hevent : event.Faithful) :
    (v.step event).Stored := by
  cases event with
  | typeQuery edit => exact ⟨hevent, h.filter, h.presets, h.items, h.file⟩
  | typeFilter edit =>
    have hframe := (v.edits_setFilterText edit.text).frame
    have hform : (v.setFilterText edit.text).form = { v.form with filterEdit := edit } := by
      rw [form_setFilterText, QLineEdit.setText_text]
    have hedited : { v with form.filterEdit := edit }.Stored :=
      ⟨h.query, hevent, h.presets, h.items, h.file⟩
    exact hedited.congr (congrArg _ hform) (congrArg _ hform) hframe.saved
      (congrArg _ hframe.savedCombo) hframe.file
  | chooseNetwork index => exact h.congr rfl rfl rfl rfl rfl
  | chooseType index => exact h.congr rfl rfl rfl rfl rfl
  | click box =>
    refine (v.edits_setChecked box _).stored h ?_ ?_ <;> rw [form_setChecked] <;> rfl
  | spinMin n => refine (v.edits_setMin n).stored h ?_ ?_ <;> rw [form_setMin] <;> rfl
  | spinMax n => refine (v.edits_setMax n).stored h ?_ ?_ <;> rw [form_setMax] <;> rfl
  | search => exact v.onlyTabs_onSearch.stored h
  | results results source => exact h.congr rfl rfl rfl rfl rfl
  | closeTab index next => exact (v.onlyTabs_onTabClose index next).stored h
  | selectTab index => exact (v.onlyTabs_selectTab index).stored h
  | chooseSaved index => exact h.congr rfl rfl rfl rfl rfl
  | save entered writable =>
    obtain ⟨rfl, hname⟩ := hevent
    exact h.onSaveSearch hname
  | load => exact h.onLoadSaved
  | delete writable =>
    obtain rfl : writable = true := hevent
    exact h.onDeleteSaved
  | restart => exact h.restart

/-- The preset is in the list, as it was made or as it was read from the file. -/
def Holds (s : SavedSearch) (v : SearchView) : Prop := s ∈ v.saved ∨ s.cleaned ∈ v.saved

/-- The preset is not deleted, and none is saved under its name. -/
def Spares (s : SavedSearch) (v : SearchView) : Event → Prop
  | .save entered _ => ∀ name ∈ entered, name.trimmed ≠ s.name ∧ name.trimmed ≠ s.cleaned.name
  | .delete _ => v.chosen ≠ some s ∧ v.chosen ≠ some s.cleaned
  | _ => True

variable {s : SavedSearch}

omit [RegexEngine] [Qt] in
theorem Holds.congr (h : Holds s v) (hsaved : v'.saved = v.saved) : Holds s v' := by
  rw [Holds, hsaved]
  exact h

omit [RegexEngine] in
theorem saved_onSaveSearch (v : SearchView) {name : QString} (hname : name.trimmed ≠ [])
    (writable : Bool) : (v.onSaveSearch (some name) writable).saved =
      SavedSearch.onSaveSearch v.saved (some name) v.form.preset := by
  simp only [SearchView.onSaveSearch, if_neg hname, selectSaved, SearchView.write]
  split <;> split <;> rfl

omit [RegexEngine] in
theorem Holds.onSaveSearch (h : Holds s v) {entered : Option QString} {writable : Bool}
    (hspares : Spares s v (.save entered writable)) :
    Holds s (v.onSaveSearch entered writable) := by
  cases entered with
  | none => exact h
  | some name =>
    obtain ⟨hne, hcleaned⟩ := hspares name rfl
    by_cases hname : name.trimmed = []
    · rw [SearchView.onSaveSearch, if_pos hname]
      exact h
    · rw [Holds, saved_onSaveSearch v hname]
      exact h.imp (SavedSearch.mem_onSaveSearch_of_mem · hne.symm)
        (SavedSearch.mem_onSaveSearch_of_mem · hcleaned.symm)

omit [RegexEngine] in
theorem saved_onDeleteSaved (v : SearchView) {e : SavedSearch} (writable : Bool)
    (he : v.chosen = some e) : (v.onDeleteSaved writable).saved =
      v.saved.eraseIdx v.savedCombo.currentIndex.toNat := by
  simp only [SearchView.onDeleteSaved, he, SearchView.write]
  split <;> rfl

omit [RegexEngine] in
theorem Holds.onDeleteSaved (h : Holds s v) {writable : Bool}
    (hspares : Spares s v (.delete writable)) : Holds s (v.onDeleteSaved writable) := by
  cases hchosen : v.chosen with
  | none =>
    rw [SearchView.onDeleteSaved, hchosen]
    exact h
  | some e =>
    have hat : v.saved[v.savedCombo.currentIndex.toNat]? = some e := by
      rw [chosen] at hchosen
      split at hchosen
      · exact hchosen
      · cases hchosen
    -- what is deleted is another one than the one that is kept
    have hkept {e' : SavedSearch} (hmem : e' ∈ v.saved) (hne : v.chosen ≠ some e') :
        e' ∈ v.saved.eraseIdx v.savedCombo.currentIndex.toNat := by
      obtain ⟨i, hi⟩ := List.getElem?_of_mem hmem
      refine List.mem_eraseIdx_iff_getElem?.mpr ⟨i, ?_, hi⟩
      rintro rfl
      exact hne (hchosen.trans (hat.symm.trans hi))
    rw [Holds, v.saved_onDeleteSaved writable hchosen]
    exact h.imp (hkept · hspares.1) (hkept · hspares.2)

theorem Holds.step (h : Holds s v) (hv : v.Stored) {event : Event} (hspares : Spares s v event) :
    Holds s (v.step event) := by
  cases event with
  | typeQuery edit => exact h
  | chooseNetwork index => exact h
  | chooseType index => exact h
  | typeFilter edit => exact h.congr (v.edits_setFilterText edit.text).frame.saved
  | click box => exact h.congr (v.edits_setChecked box _).frame.saved
  | spinMin n => exact h.congr (v.edits_setMin n).frame.saved
  | spinMax n => exact h.congr (v.edits_setMax n).frame.saved
  | search => exact h.congr v.onlyTabs_onSearch.saved
  | results results source => exact h
  | closeTab index next => exact h.congr (v.onlyTabs_onTabClose index next).saved
  | selectTab index => exact h.congr (v.onlyTabs_selectTab index).saved
  | chooseSaved index => exact h
  | save entered writable => exact h.onSaveSearch hspares
  | load => exact h.congr v.presets_onLoadSaved.1
  | delete writable => exact h.onDeleteSaved hspares
  | restart =>
    -- the file has every preset cleaned, and cleaning does nothing to a clean one
    have hsaved : (v.step .restart).saved = v.saved.map SavedSearch.cleaned := hv.file
    rw [Holds, hsaved]
    refine .inr (h.elim (List.mem_map_of_mem ·) fun hcleaned => ?_)
    exact List.mem_map.mpr ⟨_, hcleaned, s.cleaned_cleaned⟩

omit [RegexEngine] in
theorem stored_start : ({} : SearchView).Stored :=
  ⟨rfl, rfl, (by intro e he; cases he), rfl, rfl⟩

/-- The item of a preset is chosen and loaded. -/
theorem form_chosen_load (hv : v.Stored) {i : ℕ} {e : SavedSearch} (hi : v.saved[i]? = some e) :
    ((v.step (.chooseSaved i)).step .load).form = v.form.loaded e := by
  have hlt : i < v.savedCombo.count := by
    rw [hv.items]
    exact (List.getElem?_eq_some_iff.mp hi).1
  have hindex : (v.savedCombo.setCurrentIndex i).currentIndex = i := by
    rw [QComboBox.currentIndex_setCurrentIndex, if_pos (by omega)]
  have hchosen : (v.step (.chooseSaved i)).chosen = some e := by
    simp only [SearchView.step, chosen, hindex]
    simpa using hi
  exact form_onLoadSaved hchosen

/-- A preset that is made of the form, and spared by what happens then, can be chosen under its
    name, and loading it makes the form again; after a restart, but for the separators in its
    texts. -/
theorem preset_restored [LawfulQtText] {before after : List Event} {name : QString}
    (hname : name.trimmed ≠ [])
    (hfaithful : ∀ event ∈ before ++ .save (some name) true :: after, event.Faithful)
    (hspares : Run.Along step (Spares ((before.foldl step {}).form.named name.trimmed))
      ((before.foldl step {}).step (.save (some name) true)) after) :
    ∃ i e, ((before ++ .save (some name) true :: after).foldl step {}).saved[i]? = some e ∧
      (e.name = name.trimmed ∨ e.name = clean name.trimmed) ∧
      ((((before ++ .save (some name) true :: after).foldl step {}).step
          (.chooseSaved i)).step .load).form ∈
        [(before.foldl step {}).form, (before.foldl step {}).form.cleaned] := by
  obtain ⟨hbefore, hsave, hafter⟩ : (∀ event ∈ before, event.Faithful) ∧
      (Event.save (some name) true).Faithful ∧ ∀ event ∈ after, event.Faithful := by
    simpa only [List.forall_mem_append, List.forall_mem_cons] using hfaithful
  have hexclusive := (governed_run before).exclusive
  have hmade : (before.foldl step {}).Stored :=
    Run.foldl_of_invariant (fun _ _ hv hevent => hv.step hevent) stored_start
      (Run.along_of_forall hbefore)
  rw [List.foldl_append, List.foldl_cons]
  generalize before.foldl step {} = made at *
  have hholds : Holds (made.form.named name.trimmed) (made.step (.save (some name) true)) := by
    refine .inl ?_
    rw [step, saved_onSaveSearch made hname]
    exact SavedSearch.mem_onSaveSearch hname
  have hstep : ∀ v event, v.Stored ∧ Holds (made.form.named name.trimmed) v →
      Event.Faithful event ∧ Spares (made.form.named name.trimmed) v event →
      (step v event).Stored ∧ Holds (made.form.named name.trimmed) (step v event) :=
    fun v event hv hevent => ⟨hv.1.step hevent.1, hv.2.step hv.1 hevent.2⟩
  obtain ⟨hstored, hkept⟩ := Run.foldl_of_invariant hstep ⟨hmade.step hsave, hholds⟩
    (hspares.and_forall hafter)
  generalize after.foldl step (made.step (.save (some name) true)) = v at *
  rcases hkept with hmem | hmem
  · obtain ⟨i, hi⟩ := List.getElem?_of_mem hmem
    refine ⟨i, _, hi, .inl rfl, ?_⟩
    rw [form_chosen_load hstored hi, SearchForm.loaded_preset _ hexclusive]
    exact List.mem_cons_self
  · obtain ⟨i, hi⟩ := List.getElem?_of_mem hmem
    refine ⟨i, _, hi, .inr rfl, ?_⟩
    have hcleaned : made.form.cleaned.Exclusive := hexclusive
    rw [form_chosen_load hstored hi, SearchForm.cleaned_named, SearchForm.loaded_preset _ hcleaned]
    exact List.mem_cons_of_mem _ List.mem_cons_self

end stored

end handlers

/-- A form is filled in. -/
def Event.filling : List Event :=
  [.click .glob, .typeFilter ⟨.lit "*.iso", by decide⟩, .spinMin 5,
    .typeQuery ⟨.lit "linux\tdvd", by decide⟩, .chooseType 6]

/-- It is searched and changed, and the program is started again. -/
def Event.moving : List Event :=
  [.search, .click .regex, .typeQuery ⟨[], QLineEdit.short_nil⟩, .restart,
    .save (some (.lit "all")) true]

theorem preset_restored_afterRestart :
    letI := sampleQt
    letI := sampleRegexEngine
    let made := Event.filling.foldl step {}
    let v := (Event.filling ++ .save (some (.lit " dvds")) true :: Event.moving).foldl step {}
    ∃ i e, v.saved[i]? = some e ∧
      (e.name = (QString.lit " dvds").trimmed ∨ e.name = clean (QString.lit " dvds").trimmed) ∧
      ((v.step (.chooseSaved i)).step .load).form ∈ [made.form, made.form.cleaned] :=
  letI := sampleQt
  letI := sampleRegexEngine
  haveI := sampleQt_lawfulText
  preset_restored (by decide) (by decide)
    ⟨trivial, trivial, trivial, trivial, fun _ h => Option.some.inj h ▸ by decide, trivial⟩

end SearchView

end Amule
