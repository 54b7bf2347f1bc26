import Mathlib.Data.List.TakeDrop
import AmuleRemote.Lib.Update
import AmuleRemote.Ec.Queries

/-!
# The preferences panel

`preferencespanel.cpp`: the widgets, each bound to a member of `DaemonPrefs`, and
the way of a set of preferences through them and back.

A widget holds only what it can show. A spin box keeps its value in a range, a
combo box selects an item or none, a line edit has a greatest length.

## Main results

- `PreferencesPanel.collect_setPrefs_iff` — preferences pass through the panel
  unchanged if and only if every widget can show its member
-/

namespace Amule

/-- `static_cast<int>` of a `quint64`. -/
def toInt (v : UInt64) : ℤ := (v.toNat : ℤ).bmod (2 ^ 32)

abbrev QCheckBox := Bool

structure QSpinBox where
  minimum : ℤ
  maximum : ℤ
  value : ℤ
  inRange : minimum ≤ value ∧ value ≤ maximum

def QSpinBox.setValue (box : QSpinBox) (v : ℤ) : QSpinBox where
  minimum := box.minimum
  maximum := box.maximum
  value := max box.minimum (min v box.maximum)
  inRange := ⟨le_max_left _ _, max_le (box.inRange.1.trans box.inRange.2) (min_le_right _ _)⟩

structure QComboBox where
  count : ℕ
  currentIndex : ℤ
  selected : currentIndex = -1 ∨ 0 ≤ currentIndex ∧ currentIndex < count

def QComboBox.setCurrentIndex (box : QComboBox) (index : ℤ) : QComboBox where
  count := box.count
  currentIndex := if 0 ≤ index ∧ index < box.count then index else -1
  selected := by
    by_cases h : 0 ≤ index ∧ index < box.count
    · rw [if_pos h]
      exact .inr h
    · rw [if_neg h]
      exact .inl rfl

@[simp] theorem QComboBox.count_setCurrentIndex (box : QComboBox) (index : ℤ) :
    (box.setCurrentIndex index).count = box.count := rfl

theorem QComboBox.currentIndex_setCurrentIndex (box : QComboBox) (index : ℤ) :
    (box.setCurrentIndex index).currentIndex =
      if 0 ≤ index ∧ index < box.count then index else -1 := rfl

/-- The greatest length of a line edit. -/
def maxLength : ℕ := 32767

structure QLineEdit where
  text : QString := []
  short : text.length ≤ maxLength := by decide

def QLineEdit.setText (_ : QLineEdit) (s : QString) : QLineEdit where
  text := s.take maxLength
  short := List.length_take_le _ _

structure BoolBinding where
  widget : QCheckBox
  field : BoolField

structure IntBinding where
  widget : QSpinBox
  field : IntField

structure StringBinding where
  widget : QLineEdit
  field : StrField

def boolBox (field : BoolField) : BoolBinding := ⟨false, field⟩

def intBox (min max : ℤ) (field : IntField) (h : min ≤ 0 ∧ 0 ≤ max := by decide) : IntBinding :=
  ⟨⟨min, max, 0, h⟩, field⟩

def strEdit (field : StrField) : StringBinding := ⟨{}, field⟩

/-- What the panel's builders register, in their order. -/
structure Bindings where
  bools : List BoolBinding := []
  ints : List IntBinding := []
  strings : List StringBinding := []

instance : Append Bindings :=
  ⟨fun a b => ⟨a.bools ++ b.bools, a.ints ++ b.ints, a.strings ++ b.strings⟩⟩

def buildGeneralTab : Bindings where
  bools := [boolBox .checkNewVersion, boolBox .onlineSignatureEnabled]
  strings := [strEdit .nick]

def buildConnectionTab : Bindings where
  bools := [
    boolBox .udpDisable, boolBox .networkEd2k, boolBox .networkKad, boolBox .autoconnect,
    boolBox .reconnect]
  ints := [
    intBox 0 1000000 .maxDownload, intBox 0 1000000 .maxUpload, intBox 0 1000000 .slotAllocation,
    intBox 0 1000000 .downloadCapacity, intBox 0 1000000 .uploadCapacity, intBox 0 65535 .tcpPort,
    intBox 0 65535 .udpPort, intBox 0 100000 .maxSources, intBox 0 100000 .maxConnections]

def buildFilesTab : Bindings where
  bools := [
    boolBox .ichEnabled, boolBox .aichTrust, boolBox .addNewPaused, boolBox .addNewAutoDlPrio,
    boolBox .previewPrio, boolBox .startNextPaused, boolBox .resumeSameCategory,
    boolBox .allocFullSize, boolBox .ulFullChunks, boolBox .extractMetadata, boolBox .saveSources,
    boolBox .checkFreeSpace, boolBox .addNewAutoUlPrio]
  ints := [intBox 0 1000000 .minFreeSpaceMB]

def buildDirectoriesTab : Bindings where
  bools := [boolBox .shareHidden, boolBox .autoRescan]
  strings := [strEdit .incomingDir, strEdit .tempDir]

def buildServersTab : Bindings where
  bools := [
    boolBox .removeDeadServers, boolBox .serverAutoUpdate, boolBox .updateFromServer,
    boolBox .updateFromClient, boolBox .useScoreSystem, boolBox .smartIdCheck,
    boolBox .safeServerConnect, boolBox .autoConnectStaticOnly, boolBox .manualHighPrio]
  ints := [intBox 0 1000 .deadServerRetries]
  strings := [strEdit .serverListUrl]

def buildSecurityTab : Bindings where
  bools := [
    boolBox .useSecIdent, boolBox .obfuscationRequested, boolBox .obfuscationRequired,
    boolBox .filterClients, boolBox .filterServers, boolBox .ipfilterAutoUpdate,
    boolBox .filterLan]
  ints := [intBox 0 255 .ipfilterLevel]
  strings := [strEdit .ipfilterUrl]

/-- Everybody, friends, no one. -/
def canSeeSharesBox : QComboBox := ⟨3, 0, by decide⟩

def buildMessagesTab : Bindings where
  bools := [
    boolBox .msgFilterEnabled, boolBox .msgFilterAll, boolBox .msgFilterFriends,
    boolBox .msgFilterSecure, boolBox .msgFilterByKeyword]
  strings := [strEdit .msgKeywords]

def buildRemoteTab : Bindings where
  bools := [boolBox .webserverAutorun, boolBox .webserverGuest, boolBox .webserverGzip]
  ints := [intBox 0 65535 .webserverPort, intBox 0 100000 .webserverRefresh]
  strings := [strEdit .webserverTemplate]

def buildAdvancedTab : Bindings where
  bools := [boolBox .verbose]
  ints := [
    intBox 0 1000 .maxConnPer5Sec, intBox 0 2000000000 .fileBufferSize,
    intBox 0 1000000 .uploadQueueSize, intBox 0 1000000 .serverKeepaliveTimeout]
  strings := [strEdit .kadNodesUrl]

def builtBindings : Bindings :=
  buildGeneralTab ++ buildConnectionTab ++ buildFilesTab ++ buildDirectoriesTab ++
    buildServersTab ++ buildSecurityTab ++ buildMessagesTab ++ buildRemoteTab ++ buildAdvancedTab

/-- What stays of a spin box's binding while its value changes. -/
def IntBinding.shape (i : IntBinding) : ℤ × ℤ × IntField :=
  (i.widget.minimum, i.widget.maximum, i.field)

/-- The panel. Its widgets change, but not what they are bound to. -/
structure PreferencesPanel where
  current : DaemonPrefs := {}
  bools : List BoolBinding := builtBindings.bools
  ints : List IntBinding := builtBindings.ints
  strings : List StringBinding := builtBindings.strings
  canSeeShares : QComboBox := canSeeSharesBox
  bools_bound : bools.map BoolBinding.field = builtBindings.bools.map BoolBinding.field := by rfl
  ints_bound : ints.map IntBinding.shape = builtBindings.ints.map IntBinding.shape := by rfl
  strings_bound :
    strings.map StringBinding.field = builtBindings.strings.map StringBinding.field := by rfl
  shares_items : canSeeShares.count = 3 := by rfl

namespace PreferencesPanel

def setPrefs (panel : PreferencesPanel) (prefs : DaemonPrefs) : PreferencesPanel where
  current := prefs
  bools := panel.bools.map fun b => { b with widget := prefs.bool b.field }
  ints := panel.ints.map fun i => { i with widget := i.widget.setValue (toInt (prefs.int i.field)) }
  strings := panel.strings.map fun s => { s with widget := s.widget.setText (prefs.str s.field) }
  canSeeShares := panel.canSeeShares.setCurrentIndex (toInt (prefs.int .canSeeShares))
  bools_bound := by rw [← panel.bools_bound, List.map_map]; rfl
  ints_bound := by rw [← panel.ints_bound, List.map_map]; rfl
  strings_bound := by rw [← panel.strings_bound, List.map_map]; rfl
  shares_items := (panel.canSeeShares.count_setCurrentIndex _).trans panel.shares_items

def collect (panel : PreferencesPanel) : DaemonPrefs :=
  let p := panel.bools.foldl (fun p b => p.setBool b.field b.widget) panel.current
  let p := panel.ints.foldl (fun p i => p.setInt i.field (.ofInt i.widget.value)) p
  let p := panel.strings.foldl (fun p s => p.setStr s.field s.widget.text) p
  p.setInt .canSeeShares (.ofInt panel.canSeeShares.currentIndex)

end PreferencesPanel

section casts

theorem toNat_ofInt {k : ℤ} (h0 : 0 ≤ k) (h : k < 2 ^ 64) : ((UInt64.ofInt k).toNat : ℤ) = k := by
  have hmod : k % 2 ^ 64 = k := Int.emod_eq_of_lt h0 h
  have hlt : k.toNat < 2 ^ 64 := by omega
  rw [UInt64.ofInt, hmod, UInt64.toNat_ofNat_of_lt' hlt]
  exact Int.toNat_of_nonneg h0

theorem toInt_of_lt {v : UInt64} (h : v.toNat < 2 ^ 31) : toInt v = v.toNat := by
  refine Int.bmod_eq_of_le ?_ ?_
  · norm_num
  · norm_num
    omega

/-- A value passes through a spin box of natural numbers if and only if it is in range. -/
theorem QSpinBox.ofInt_setValue_iff {box : QSpinBox} (hmin : box.minimum = 0)
    (hmax : box.maximum < 2 ^ 31) (v : UInt64) :
    UInt64.ofInt (box.setValue (toInt v)).value = v ↔ (v.toNat : ℤ) ≤ box.maximum := by
  have hshown : 0 ≤ (box.setValue (toInt v)).value ∧
      (box.setValue (toInt v)).value ≤ box.maximum := by
    have h := (box.setValue (toInt v)).inRange
    exact ⟨hmin ▸ h.1, h.2⟩
  constructor
  · -- what is shown is in range whatever was set
    intro h
    have hvalue := toNat_ofInt hshown.1 (by omega)
    rw [h] at hvalue
    rw [hvalue]
    exact hshown.2
  · -- a value in range is below 2^31, so neither the cast nor the clamp changes it
    intro h
    have hcast : toInt v = v.toNat := toInt_of_lt (by omega)
    have hvalue : (box.setValue (toInt v)).value = v.toNat := by
      show max box.minimum (min (toInt v) box.maximum) = v.toNat
      rw [hcast, hmin, min_eq_left h, max_eq_right (Int.natCast_nonneg _)]
    refine UInt64.toNat_inj.mp (Int.natCast_inj.mp ?_)
    rw [toNat_ofInt hshown.1 (by omega), hvalue]

/-- A value passes through the combo box if and only if it is the index of an item, or the
    value that stands for no item. -/
theorem QComboBox.ofInt_setCurrentIndex_iff {box : QComboBox} (hcount : box.count = 3)
    (v : UInt64) : UInt64.ofInt (box.setCurrentIndex (toInt v)).currentIndex = v ↔
      v.toNat ≤ 2 ∨ v = .ofInt (-1) := by
  constructor
  · -- an index is an item's, or -1, which the cast back turns into the value of no item
    intro h
    rcases (box.setCurrentIndex (toInt v)).selected with hnone | ⟨h0, hlt⟩
    · rw [hnone] at h
      exact .inr h.symm
    · rw [QComboBox.count_setCurrentIndex, hcount] at hlt
      have hvalue := toNat_ofInt h0 (by omega)
      rw [h] at hvalue
      exact .inl (by omega)
  · rintro (hle | rfl)
    · have hcast : toInt v = v.toNat := toInt_of_lt (by omega)
      have hitem : 0 ≤ toInt v ∧ toInt v < box.count := by
        rw [hcast, hcount]
        omega
      have hvalue : (box.setCurrentIndex (toInt v)).currentIndex = v.toNat := by
        rw [QComboBox.currentIndex_setCurrentIndex, if_pos hitem, hcast]
      refine UInt64.toNat_inj.mp (Int.natCast_inj.mp ?_)
      rw [hvalue, toNat_ofInt (Int.natCast_nonneg _) (by omega)]
    · have hnone : ¬(0 ≤ toInt (.ofInt (-1)) ∧ toInt (.ofInt (-1)) < box.count) := by
        intro h
        exact absurd h.1 (by decide)
      rw [QComboBox.currentIndex_setCurrentIndex, if_neg hnone]

theorem QLineEdit.text_setText_iff (edit : QLineEdit) (s : QString) :
    (edit.setText s).text = s ↔ s.length ≤ maxLength := List.take_eq_self_iff s

end casts

theorem builtBindings_bools_nodup : (builtBindings.bools.map BoolBinding.field).Nodup := by decide

theorem builtBindings_ints_nodup : (builtBindings.ints.map IntBinding.field).Nodup := by decide

theorem builtBindings_strings_nodup : (builtBindings.strings.map StringBinding.field).Nodup := by
  decide

/-- The ranges are of natural numbers, and within an `int`. -/
theorem builtBindings_ranges :
    ∀ i ∈ builtBindings.ints, i.widget.minimum = 0 ∧ i.widget.maximum < 2 ^ 31 := by
  decide

theorem foldl_setBool (l : List BoolBinding) (p : DaemonPrefs) :
    l.foldl (fun p b => p.setBool b.field b.widget) p =
      { p with bool := Update.writeAll BoolBinding.field BoolBinding.widget l p.bool } :=
  Update.foldl_eq_writeAll (fun bool => { p with bool }) (fun _ _ => rfl) l p.bool

theorem foldl_setInt (l : List IntBinding) (p : DaemonPrefs) :
    l.foldl (fun p i => p.setInt i.field (.ofInt i.widget.value)) p =
      { p with int := Update.writeAll IntBinding.field (fun i => .ofInt i.widget.value) l p.int } :=
  Update.foldl_eq_writeAll (fun int => { p with int }) (fun _ _ => rfl) l p.int

theorem foldl_setStr (l : List StringBinding) (p : DaemonPrefs) :
    l.foldl (fun p s => p.setStr s.field s.widget.text) p =
      { p with str := Update.writeAll StringBinding.field (fun s => s.widget.text) l p.str } :=
  Update.foldl_eq_writeAll (fun str => { p with str }) (fun _ _ => rfl) l p.str

/-- Every widget can show its member. -/
structure DaemonPrefs.Shown (p : DaemonPrefs) : Prop where
  ints : ∀ i ∈ builtBindings.ints, ((p.int i.field).toNat : ℤ) ≤ i.widget.maximum
  shares : (p.int .canSeeShares).toNat ≤ 2 ∨ p.int .canSeeShares = .ofInt (-1)
  strings : ∀ s ∈ builtBindings.strings, (p.str s.field).length ≤ maxLength

namespace PreferencesPanel

section roundTrip

variable (panel : PreferencesPanel) (p : DaemonPrefs)

/-- What is collected is what the widgets hold, and `loaded` as it was. -/
theorem collect_eq : panel.collect = {
    loaded := panel.current.loaded
    bool := Update.writeAll BoolBinding.field BoolBinding.widget panel.bools panel.current.bool
    int := Function.update (Update.writeAll IntBinding.field (fun i => .ofInt i.widget.value)
      panel.ints panel.current.int) .canSeeShares (.ofInt panel.canSeeShares.currentIndex)
    str := Update.writeAll StringBinding.field (fun s => s.widget.text) panel.strings
      panel.current.str } := by
  rw [collect, foldl_setBool, foldl_setInt, foldl_setStr]
  rfl

theorem bools_setPrefs : Update.writeAll BoolBinding.field BoolBinding.widget
    (panel.setPrefs p).bools p.bool = p.bool := by
  have hnodup : ((panel.setPrefs p).bools.map BoolBinding.field).Nodup := by
    rw [(panel.setPrefs p).bools_bound]
    exact builtBindings_bools_nodup
  refine (Update.writeAll_eq_iff hnodup).mpr ⟨fun b hb => ?_, fun _ _ => rfl⟩
  obtain ⟨b, -, rfl⟩ := List.mem_map.mp hb
  rfl

theorem strings_setPrefs_iff : Update.writeAll StringBinding.field (fun s => s.widget.text)
    (panel.setPrefs p).strings p.str = p.str ↔
      ∀ s ∈ builtBindings.strings, (p.str s.field).length ≤ maxLength := by
  have hnodup : ((panel.setPrefs p).strings.map StringBinding.field).Nodup := by
    rw [(panel.setPrefs p).strings_bound]
    exact builtBindings_strings_nodup
  rw [Update.writeAll_eq_iff hnodup, and_iff_left fun _ _ => rfl]
  calc (∀ s ∈ (panel.setPrefs p).strings, s.widget.text = p.str s.field)
      ↔ ∀ s ∈ panel.strings, (p.str s.field).length ≤ maxLength := by
        refine List.forall_mem_map.trans (forall₂_congr fun s _ => ?_)
        exact s.widget.text_setText_iff _
    _ ↔ ∀ field ∈ panel.strings.map StringBinding.field, (p.str field).length ≤ maxLength := by
        rw [List.forall_mem_map]
    _ ↔ ∀ s ∈ builtBindings.strings, (p.str s.field).length ≤ maxLength := by
        rw [panel.strings_bound, List.forall_mem_map]

theorem ints_setPrefs_iff : Update.writeAll IntBinding.field (fun i => .ofInt i.widget.value)
    (panel.setPrefs p).ints p.int = p.int ↔
      ∀ i ∈ builtBindings.ints, ((p.int i.field).toNat : ℤ) ≤ i.widget.maximum := by
  have hfields (l : List IntBinding) :
      l.map IntBinding.field = (l.map IntBinding.shape).map fun shape => shape.2.2 := by
    rw [List.map_map]
    rfl
  have hnodup : ((panel.setPrefs p).ints.map IntBinding.field).Nodup := by
    rw [hfields, (panel.setPrefs p).ints_bound, ← hfields]
    exact builtBindings_ints_nodup
  have hranges : ∀ shape ∈ panel.ints.map IntBinding.shape, shape.1 = 0 ∧ shape.2.1 < 2 ^ 31 := by
    rw [panel.ints_bound, List.forall_mem_map]
    exact builtBindings_ranges
  rw [Update.writeAll_eq_iff hnodup, and_iff_left fun _ _ => rfl]
  calc (∀ i ∈ (panel.setPrefs p).ints, UInt64.ofInt i.widget.value = p.int i.field)
      ↔ ∀ i ∈ panel.ints, ((p.int i.field).toNat : ℤ) ≤ i.widget.maximum := by
        refine List.forall_mem_map.trans (forall₂_congr fun i hi => ?_)
        have hrange := hranges i.shape (List.mem_map_of_mem hi)
        exact QSpinBox.ofInt_setValue_iff hrange.1 hrange.2 _
    _ ↔ ∀ shape ∈ panel.ints.map IntBinding.shape, ((p.int shape.2.2).toNat : ℤ) ≤ shape.2.1 := by
        rw [List.forall_mem_map]
        rfl
    _ ↔ ∀ i ∈ builtBindings.ints, ((p.int i.field).toNat : ℤ) ≤ i.widget.maximum := by
        rw [panel.ints_bound, List.forall_mem_map]
        rfl

/-- The combo box is written after the spin boxes, to a member none of them is bound to. -/
theorem shares_setPrefs_iff : Function.update (Update.writeAll IntBinding.field
    (fun i => .ofInt i.widget.value) (panel.setPrefs p).ints p.int) .canSeeShares
      (.ofInt (panel.setPrefs p).canSeeShares.currentIndex) = p.int ↔
    Update.writeAll IntBinding.field (fun i => .ofInt i.widget.value) (panel.setPrefs p).ints p.int
      = p.int ∧ ((p.int .canSeeShares).toNat ≤ 2 ∨ p.int .canSeeShares = .ofInt (-1)) := by
  have hshape : ∀ shape ∈ (panel.setPrefs p).ints.map IntBinding.shape,
      shape.2.2 ≠ .canSeeShares := by
    rw [(panel.setPrefs p).ints_bound]
    decide
  have hunbound : IntField.canSeeShares ∉ (panel.setPrefs p).ints.map IntBinding.field := by
    intro h
    obtain ⟨i, hi, hfield⟩ := List.mem_map.mp h
    exact hshape i.shape (List.mem_map_of_mem hi) hfield
  have hbox := QComboBox.ofInt_setCurrentIndex_iff panel.shares_items (p.int .canSeeShares)
  rw [Function.update_eq_iff, ← hbox]
  constructor
  · -- before the combo box is written the member has its old value, which it gets again
    rintro ⟨hshares, hrest⟩
    refine ⟨?_, hshares⟩
    funext field
    by_cases hfield : field = .canSeeShares
    · rw [hfield, Update.writeAll_of_notMem hunbound]
    · exact hrest field hfield
  · rintro ⟨hints, hshares⟩
    exact ⟨hshares, fun field _ => congrFun hints field⟩

end roundTrip

/-- Preferences come back from the panel unchanged if and only if it can show them. -/
theorem collect_setPrefs_iff (panel : PreferencesPanel) (p : DaemonPrefs) :
    (panel.setPrefs p).collect = p ↔ p.Shown := by
  have hloaded : (panel.setPrefs p).current = p := rfl
  rw [collect_eq, hloaded, DaemonPrefs.ext_iff]
  constructor
  · rintro ⟨-, -, hint, hstr⟩
    obtain ⟨hints, hshares⟩ := (shares_setPrefs_iff panel p).mp hint
    exact ⟨(ints_setPrefs_iff panel p).mp hints, hshares, (strings_setPrefs_iff panel p).mp hstr⟩
  · rintro ⟨hints, hshares, hstrings⟩
    refine ⟨rfl, bools_setPrefs panel p, ?_, (strings_setPrefs_iff panel p).mpr hstrings⟩
    exact (shares_setPrefs_iff panel p).mpr ⟨(ints_setPrefs_iff panel p).mpr hints, hshares⟩

/-- A daemon without a low limit on its download rate. -/
def fastLine : Ec.Packet := ⟨Ec.Op.getPreferences, [
  (Ec.Tag.empty Ec.TagName.prefsConnections).withChildren
    [.integer Ec.TagName.connMaxDl 2000000]]⟩

/-- The spin box of the download rate ends at 1000000. -/
theorem collect_setPrefs_fastLine :
    (({} : PreferencesPanel).setPrefs (prefsOf fastLine)).collect ≠ prefsOf fastLine := by
  intro h
  have hmax : (({} : PreferencesPanel).setPrefs (prefsOf fastLine)).collect.int .maxDownload =
      (prefsOf fastLine).int .maxDownload := by rw [h]
  exact absurd hmax (by decide +kernel)

end PreferencesPanel

end Amule
