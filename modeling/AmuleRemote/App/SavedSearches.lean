import AmuleRemote.Lib.Lines
import AmuleRemote.Qt

/-!
# Saved searches

The presets of `savedsearches.cpp` and their file: a line for each preset, eleven
fields separated by tabs. A text field is written with its separators replaced by
spaces, so that the file has the fields and lines that were meant; what is read is
trimmed as a line, and a line with another number of fields is dropped.

## Main results

- `loadLine_line` — a written line is read as the preset, its texts cleaned
- `loadSavedSearches_save` — a saved list is loaded, and saving it again changes nothing
- `onSaveSearch_named` — the names of the stored presets are trimmed and not empty
-/

namespace Amule

open QString

structure SavedSearch where
  name : QString := []
  text : QString := []
  kindIndex : Int32 := 0
  typeIndex : Int32 := 0
  filterText : QString := []
  filterNegate : Bool := false
  filterGlob : Bool := false
  filterRegex : Bool := false
  onlyComplete : Bool := false
  minSources : UInt64 := 0
  maxSources : UInt64 := 0
deriving DecidableEq

namespace SavedSearch

def clean (s : QString) : QString :=
  ((s.replaceUnit 0x09 0x20).replaceUnit 0x0A 0x20).replaceUnit 0x0D 0x20

def boolField (v : Bool) : QString := if v then lit "1" else lit "0"

def fields (s : SavedSearch) : List QString :=
  [clean s.name, clean s.text, numberInt s.kindIndex, numberInt s.typeIndex, clean s.filterText,
    boolField s.filterNegate, boolField s.filterGlob, boolField s.filterRegex,
    boolField s.onlyComplete, number s.minSources.toNat, number s.maxSources.toNat]

/-- `fields.join('\t')` -/
def line (s : SavedSearch) : QString := [0x09].intercalate s.fields

/-- What is written to the file. -/
def saveSavedSearches [Qt] (searches : List SavedSearch) : QByteArray :=
  Qt.toUtf8 (searches.foldl (fun text s => text ++ s.line ++ [0x0A]) [])

/-- The preset of one line, its line end included. On reading, text mode only turns the two
    units of a line end into one, and `trimmed` cuts off either. -/
def loadLine [Qt] (bytes : QByteArray) : Option SavedSearch :=
  let line := trimmed (Qt.fromUtf8 bytes)
  if line = [] then none
  else
    match line.splitOn 0x09 with
    | [name, text, kindIndex, typeIndex, filterText, filterNegate, filterGlob, filterRegex,
        onlyComplete, minSources, maxSources] =>
      some
        { name
          text
          kindIndex := toInt kindIndex
          typeIndex := toInt typeIndex
          filterText
          filterNegate := filterNegate = lit "1"
          filterGlob := filterGlob = lit "1"
          filterRegex := filterRegex = lit "1"
          onlyComplete := onlyComplete = lit "1"
          minSources := toULongLong minSources
          maxSources := toULongLong maxSources }
    | _ => none

/-- No file is an empty list. -/
def loadSavedSearches [Qt] (file : Option QByteArray) : List SavedSearch :=
  match file with
  | none => []
  | some bytes => (Lines.read 0x0A bytes).filterMap loadLine

/-- `SearchPanel::onSaveSearch`: the preset `s` of the form, under the name that was entered
    unless the dialog was cancelled, takes the place of the one that has this name. -/
def onSaveSearch (saved : List SavedSearch) (entered : Option QString) (s : SavedSearch) :
    List SavedSearch :=
  match entered with
  | none => saved
  | some name =>
    if name.trimmed = [] then saved
    else
      let s := { s with name := name.trimmed }
      match saved.findIdx? fun e => e.name = s.name with
      | some i => saved.set i s
      | none => saved ++ [s]

/-- A preset as it comes back from the file. -/
def cleaned (s : SavedSearch) : SavedSearch :=
  { s with name := clean s.name, text := clean s.text, filterText := clean s.filterText }

/-- A name as `onSaveSearch` stores it. -/
def Named (s : SavedSearch) : Prop := s.name.trimmed = s.name ∧ s.name ≠ []

/-- A preset whose texts have a faithful UTF-8 form. -/
structure Storable (s : SavedSearch) : Prop where
  named : s.Named
  name : Utf8.wellFormed s.name = true
  text : Utf8.wellFormed s.text = true
  filterText : Utf8.wellFormed s.filterText = true
  noMark : s.name.head? ≠ some 0xFEFF

theorem onSaveSearch_named {saved : List SavedSearch} (h : ∀ e ∈ saved, e.Named)
    (entered : Option QString) (s : SavedSearch) : ∀ e ∈ onSaveSearch saved entered s, e.Named := by
  intro e he
  cases entered with
  | none => exact h e he
  | some name =>
    simp only [onSaveSearch] at he
    split at he
    · exact h e he
    · rename_i hname
      have hs : Named { s with name := name.trimmed } := ⟨trimmed_trimmed name, hname⟩
      split at he
      · cases List.mem_or_eq_of_mem_set he with
        | inl hold => exact h e hold
        | inr hnew => exact hnew ▸ hs
      · cases List.mem_append.mp he with
        | inl hold => exact h e hold
        | inr hnew => exact List.mem_singleton.mp hnew ▸ hs

/-! ### Cleaning -/

/-- What `clean` does to a code unit. -/
def cleanUnit (c : UInt16) : UInt16 := if c = 0x09 ∨ c = 0x0A ∨ c = 0x0D then 0x20 else c

theorem clean_eq_map (s : QString) : clean s = s.map cleanUnit := by
  simp only [clean, replaceUnit, List.map_map]
  refine List.map_congr_left fun c _ => ?_
  simp only [Function.comp_apply, cleanUnit]
  by_cases htab : c = 0x09
  · simp [htab]
  · by_cases hlf : c = 0x0A
    · simp [hlf]
    · simp [htab, hlf]

theorem cleanUnit_of_not_space {c : UInt16} (h : isSpace c = false) : cleanUnit c = c := by
  refine if_neg ?_
  rintro (rfl | rfl | rfl) <;> exact absurd h (by decide)

theorem cleanUnit_ne (c : UInt16) :
    cleanUnit c ≠ 0x09 ∧ cleanUnit c ≠ 0x0A ∧ cleanUnit c ≠ 0x0D := by
  rw [cleanUnit]
  split
  · decide
  · rename_i h
    simpa only [ne_eq, not_or] using h

theorem cleanUnit_cleanUnit (c : UInt16) : cleanUnit (cleanUnit c) = cleanUnit c := by
  obtain ⟨htab, hlf, hcr⟩ := cleanUnit_ne c
  exact if_neg (by simp only [htab, hlf, hcr, or_self, not_false_iff])

@[simp] theorem clean_clean (s : QString) : clean (clean s) = clean s := by
  rw [clean_eq_map, clean_eq_map, List.map_map]
  exact List.map_congr_left fun c _ => cleanUnit_cleanUnit c

/-- No separator is left. -/
theorem notMem_clean (s : QString) : 0x09 ∉ clean s ∧ 0x0A ∉ clean s := by
  rw [clean_eq_map]
  constructor
  · intro h
    obtain ⟨c, -, hc⟩ := List.mem_map.mp h
    exact (cleanUnit_ne c).1 hc
  · intro h
    obtain ⟨c, -, hc⟩ := List.mem_map.mp h
    exact (cleanUnit_ne c).2.1 hc

theorem wellFormed_clean {s : QString} (h : Utf8.wellFormed s = true) :
    Utf8.wellFormed (clean s) = true := by
  rw [clean_eq_map]
  -- the units that change are no surrogates, nor is the space they become
  have hunit : ∀ c, Utf8.isHigh (cleanUnit c) = Utf8.isHigh c ∧
      Utf8.isLow (cleanUnit c) = Utf8.isLow c := by
    intro c
    rw [cleanUnit]
    split
    · rename_i hc
      rcases hc with rfl | rfl | rfl <;> decide
    · exact ⟨rfl, rfl⟩
  refine Utf8.wellFormed_induction (P := fun s => Utf8.wellFormed (s.map cleanUnit) = true)
    rfl ?_ ?_ s h
  · intro c s hh hl _ ih
    rwa [List.map_cons, Utf8.wellFormed_unit ((hunit c).1.trans hh) ((hunit c).2.trans hl)]
  · intro c d s hh hl _ ih
    rwa [List.map_cons, List.map_cons,
      Utf8.wellFormed_pair ((hunit c).1.trans hh) ((hunit d).2.trans hl)]

/-- A trimmed text keeps its ends. -/
theorem head?_clean {s : QString} (h : s.trimmed = s) : (clean s).head? = s.head? := by
  rw [clean_eq_map, List.head?_map]
  cases hs : s.head? with
  | none => rfl
  | some c =>
    rw [Option.map_some, cleanUnit_of_not_space ((trimmed_eq_self_iff.mp h).1 c hs)]

theorem getLast?_clean {s : QString} (h : s.trimmed = s) : (clean s).getLast? = s.getLast? := by
  rw [clean_eq_map, List.getLast?_map]
  cases hs : s.getLast? with
  | none => rfl
  | some c =>
    rw [Option.map_some, cleanUnit_of_not_space ((trimmed_eq_self_iff.mp h).2 c hs)]

theorem Named.cleaned {s : SavedSearch} (h : s.Named) : s.cleaned.Named := by
  obtain ⟨htrim, hne⟩ := h
  refine ⟨trimmed_eq_self_iff.mpr ?_, ?_⟩
  · change (∀ c ∈ (clean s.name).head?, _) ∧ ∀ c ∈ (clean s.name).getLast?, _
    rw [head?_clean htrim, getLast?_clean htrim]
    exact trimmed_eq_self_iff.mp htrim
  · change clean s.name ≠ []
    rwa [clean_eq_map, Ne, List.map_eq_nil_iff]

theorem Storable.cleaned {s : SavedSearch} (h : s.Storable) : s.cleaned.Storable where
  named := h.named.cleaned
  name := wellFormed_clean h.name
  text := wellFormed_clean h.text
  filterText := wellFormed_clean h.filterText
  noMark := by
    change (clean s.name).head? ≠ _
    rw [head?_clean h.named.1]
    exact h.noMark

@[simp] theorem cleaned_cleaned (s : SavedSearch) : s.cleaned.cleaned = s.cleaned := by
  simp [cleaned]

/-! ### One line -/

/-- A field that can stand in a line. -/
def Plain (f : QString) : Prop := Utf8.wellFormed f = true ∧ 0x09 ∉ f ∧ 0x0A ∉ f

theorem plain_clean {s : QString} (h : Utf8.wellFormed s = true) : Plain (clean s) :=
  ⟨wellFormed_clean h, notMem_clean s⟩

theorem plain_of_numeric {f : QString}
    (h : ∀ c ∈ f, c = 0x2D ∨ 0x30 ≤ c.toNat ∧ c.toNat ≤ 0x39) : Plain f := by
  refine ⟨Utf8.wellFormed_of_lt fun c hc => ?_, fun hc => ?_, fun hc => ?_⟩
  · rcases h c hc with rfl | hdigit
    · decide
    · omega
  · exact absurd (h _ hc) (by decide)
  · exact absurd (h _ hc) (by decide)

theorem plain_number (v : ℕ) : Plain (number v) :=
  plain_of_numeric fun c hc => .inr (number_digits v c hc)

theorem boolField_eq (v : Bool) : boolField v = [if v then 0x31 else 0x30] := by
  cases v <;> rfl

theorem plain_boolField (v : Bool) : Plain (boolField v) := by
  refine plain_of_numeric fun c hc => .inr ?_
  rw [boolField_eq, List.mem_singleton] at hc
  rw [hc]
  cases v <;> decide

theorem Storable.plain_fields {s : SavedSearch} (h : s.Storable) : ∀ f ∈ s.fields, Plain f := by
  simp only [fields, List.forall_mem_cons]
  exact ⟨plain_clean h.name, plain_clean h.text, plain_of_numeric (numberInt_units _),
    plain_of_numeric (numberInt_units _), plain_clean h.filterText, plain_boolField _,
    plain_boolField _, plain_boolField _, plain_boolField _, plain_number _, plain_number _,
    List.forall_mem_nil _⟩

/-- Plain fields, joined by tabs, are well-formed text in one line. -/
theorem plain_intercalate (fs : List QString) (h : ∀ f ∈ fs, Plain f) :
    Utf8.wellFormed ([0x09].intercalate fs) = true ∧ 0x0A ∉ [(0x09 : UInt16)].intercalate fs := by
  induction fs with
  | nil => exact ⟨rfl, List.not_mem_nil⟩
  | cons f fs ih =>
    obtain ⟨⟨hwf, -, hlf⟩, hfs⟩ := List.forall_mem_cons.mp h
    by_cases hnil : fs = []
    · rw [hnil, List.intercalate_singleton]
      exact ⟨hwf, hlf⟩
    · obtain ⟨hwfs, hlfs⟩ := ih hfs
      rw [List.intercalate_cons_of_ne_nil hnil]
      refine ⟨Utf8.wellFormed_append (Utf8.wellFormed_append hwf rfl) hwfs, ?_⟩
      simp [hlf, hlfs]

/-- A line has no line end in it. -/
theorem Storable.line {s : SavedSearch} (h : s.Storable) :
    Utf8.wellFormed s.line = true ∧ 0x0A ∉ s.line :=
  plain_intercalate s.fields h.plain_fields

theorem head?_line {s : SavedSearch} (h : s.Named) : s.line.head? = s.name.head? := by
  have hne : clean s.name ≠ [] := h.cleaned.2
  rw [line, fields, List.intercalate_cons_of_ne_nil (List.cons_ne_nil _ _), List.append_assoc,
    List.head?_append_of_ne_nil _ hne, head?_clean h.1]

theorem getLast?_line (s : SavedSearch) :
    s.line.getLast? = (number s.maxSources.toNat).getLast? := by
  have hne := number_ne_nil s.maxSources.toNat
  simp only [line, fields, List.intercalate_cons_cons, List.intercalate_singleton,
    List.getLast?_append, List.getLast?_eq_some_getLast hne, Option.some_or]

theorem trimmed_line {s : SavedSearch} (h : s.Named) : s.line.trimmed = s.line := by
  refine trimmed_eq_self_iff.mpr ⟨?_, ?_⟩
  · rw [head?_line h]
    exact (trimmed_eq_self_iff.mp h.1).1
  · rw [getLast?_line]
    exact fun c hc => isSpace_digit (number_digits _ c (List.mem_of_getLast? hc))

theorem line_ne_nil {s : SavedSearch} (h : s.Named) : s.line ≠ [] := by
  intro hnil
  have hhead := head?_line h
  rw [hnil, List.head?_nil, eq_comm, List.head?_eq_none_iff] at hhead
  exact h.2 hhead

theorem boolField_eq_one (v : Bool) : decide (boolField v = lit "1") = v := by
  cases v <;> decide

theorem newline_notMem_encode {s : SavedSearch} (h : s.Storable) :
    (0x0A : UInt8) ∉ Utf8.encode s.line := by
  obtain ⟨hwf, hlf⟩ := h.line
  exact fun hmem => hlf (Utf8.mem_of_mem_encode hwf (by decide) hmem)

section

variable [Qt] [LawfulQtText]

/-- A written line is read as the preset, its texts cleaned. -/
theorem loadLine_line {s : SavedSearch} (h : s.Storable) :
    loadLine (Utf8.encode s.line ++ [0x0A]) = some s.cleaned := by
  have hwf := h.line.1
  have hbytes : Utf8.encode s.line ++ [0x0A] = Utf8.encode (s.line ++ [0x0A]) :=
    (Utf8.encode_append hwf [0x0A]).symm
  have hhead : (s.line ++ [0x0A]).head? ≠ some 0xFEFF := by
    rw [List.head?_append_of_ne_nil _ (line_ne_nil h.named), head?_line h.named]
    exact h.noMark
  have htext : Qt.fromUtf8 (Utf8.encode s.line ++ [0x0A]) = s.line ++ [0x0A] := by
    rw [hbytes]
    exact LawfulQtText.fromUtf8_encode _ (Utf8.wellFormed_append hwf rfl) hhead
  have htrim : trimmed (s.line ++ [0x0A]) = s.line :=
    trimmed_concat (line_ne_nil h.named) (trimmed_line h.named) (by decide)
  have hsplit : s.line.splitOn 0x09 = s.fields :=
    List.splitOn_intercalate 0x09 (fun f hf => (h.plain_fields f hf).2.1) (List.cons_ne_nil _ _)
  rw [loadLine, htext, htrim]
  simp only [if_neg (line_ne_nil h.named), hsplit, fields, toInt_numberInt, toULongLong_number,
    boolField_eq_one]
  rfl

/-! ### The file -/

theorem saveSavedSearches_eq {searches : List SavedSearch} (h : ∀ s ∈ searches, s.Storable) :
    saveSavedSearches searches = searches.flatMap fun s => Utf8.encode s.line ++ [0x0A] := by
  -- the text built so far is well-formed, so its bytes are those of the lines before
  have hfold : ∀ (text : QString), Utf8.wellFormed text = true →
      Utf8.wellFormed (searches.foldl (fun text s => text ++ s.line ++ [0x0A]) text) = true ∧
      Utf8.encode (searches.foldl (fun text s => text ++ s.line ++ [0x0A]) text) =
        Utf8.encode text ++ searches.flatMap fun s => Utf8.encode s.line ++ [0x0A] := by
    induction searches with
    | nil => exact fun text htext => ⟨htext, (List.append_nil _).symm⟩
    | cons s searches ih =>
      intro text htext
      obtain ⟨hs, hsearches⟩ := List.forall_mem_cons.mp h
      have hboth := Utf8.wellFormed_append htext hs.line.1
      obtain ⟨hwf, hbytes⟩ := ih hsearches _ (Utf8.wellFormed_append hboth (t := [0x0A]) rfl)
      refine ⟨hwf, ?_⟩
      rw [List.foldl_cons, hbytes, Utf8.encode_append hboth, Utf8.encode_append htext]
      simp only [List.flatMap_cons, List.append_assoc]
      rfl
  obtain ⟨hwf, hbytes⟩ := hfold [] rfl
  rw [saveSavedSearches, LawfulQtText.toUtf8_eq _ hwf, hbytes]
  rfl

theorem load_saved {searches : List SavedSearch} (h : ∀ s ∈ searches, s.Storable) :
    loadSavedSearches (some (saveSavedSearches searches)) = searches.map cleaned := by
  rw [loadSavedSearches, saveSavedSearches_eq h,
    Lines.read_flatMap searches fun s hs => newline_notMem_encode (h s hs)]
  induction searches with
  | nil => rfl
  | cons s searches ih =>
    obtain ⟨hs, hsearches⟩ := List.forall_mem_cons.mp h
    rw [List.map_cons, List.filterMap_cons, loadLine_line hs, ih hsearches, List.map_cons]

/-- A saved list is loaded in its order, each preset with its texts cleaned; what was loaded is
    saved and loaded unchanged. -/
theorem loadSavedSearches_save (searches : List SavedSearch) (h : ∀ s ∈ searches, s.Storable) :
    loadSavedSearches (some (saveSavedSearches searches)) = searches.map cleaned ∧
    loadSavedSearches (some (saveSavedSearches
      (loadSavedSearches (some (saveSavedSearches searches))))) =
      loadSavedSearches (some (saveSavedSearches searches)) := by
  have hcleaned : ∀ s ∈ searches.map cleaned, s.Storable := by
    intro s hs
    obtain ⟨t, ht, rfl⟩ := List.mem_map.mp hs
    exact (h t ht).cleaned
  refine ⟨load_saved h, ?_⟩
  rw [load_saved h, load_saved hcleaned, List.map_map]
  exact List.map_congr_left fun s _ => cleaned_cleaned s

end

/-- The save of two searches, with a separator in every text, extreme numbers and a pair of
    surrogates. -/
theorem loadSavedSearches_save_separators :
    let s : SavedSearch :=
      { name := [0x61, 0x09, 0xD83D, 0xDE00], text := [0x0A, 0x62], kindIndex := -2147483648
        typeIndex := 7, filterText := [0x20, 0x0D, 0x09], filterNegate := true
        maxSources := 18446744073709551615 }
    let t : SavedSearch :=
      { name := [0x62], text := [0x09], kindIndex := 2147483647, filterRegex := true
        minSources := 3 }
    @loadSavedSearches sampleQt (some (@saveSavedSearches sampleQt [s, t])) =
      [{ s with name := [0x61, 0x20, 0xD83D, 0xDE00], text := [0x20, 0x62],
                filterText := [0x20, 0x20, 0x20] },
        { t with text := [0x20] }] := by
  intro s t
  have hs : s.Storable := ⟨⟨by decide, by decide⟩, by decide, by decide, by decide, by decide⟩
  have ht : t.Storable := ⟨⟨by decide, by decide⟩, by decide, by decide, by decide, by decide⟩
  have hboth : ∀ x ∈ [s, t], x.Storable :=
    List.forall_mem_cons.mpr ⟨hs, List.forall_mem_singleton.mpr ht⟩
  exact (@loadSavedSearches_save sampleQt sampleQt_lawfulText [s, t] hboth).1

end SavedSearch

end Amule
