import AmuleRemote.App.Settings
import AmuleRemote.Lib.Run

/-!
# The last connect and the next start

The connection bar of `mainwindow.cpp` over runs. What is in the settings is what the
last connect put there: the user may go on editing the bar, and the program may end and
start again as often as it likes. The next start fills in the bar from them, so that a
connect then repeats the last one, if its password was to be remembered.

## Main results

- `LoginWindow.connect_repeated` — after a start the bar is the one of the last connect
-/

namespace Amule

open Ec

/-- The connection bar of the program, and its settings. -/
structure LoginWindow where
  settings : QSettings := {}
  bar : ConnectionBar := {}

namespace ConnectionBar

/-- The port is within the range of the spin box. -/
def InRange (bar : ConnectionBar) : Prop := 1 ≤ bar.portSpin ∧ bar.portSpin ≤ 65535

variable {bar : ConnectionBar} {settings : QSettings} {ec : RemoteConfEc}

theorem boundedPort_inRange (port : Int32) : 1 ≤ boundedPort port ∧ boundedPort port ≤ 65535 := by
  rw [boundedPort]
  split
  · exact ⟨Int32.le_refl 1, by decide⟩
  · next hlow =>
    split
    · exact ⟨by decide, Int32.le_refl 65535⟩
    · next hhigh => exact ⟨Int32.not_lt.mp hlow, Int32.not_lt.mp hhigh⟩

theorem boundedPort_eq_self {port : Int32} (h : 1 ≤ port ∧ port ≤ 65535) :
    boundedPort port = port := by
  rw [boundedPort, if_neg (Int32.not_lt.mpr h.1), if_neg (Int32.not_lt.mpr h.2)]

theorem inRange_loadSettings (settings : QSettings) (ec : RemoteConfEc) (bar : ConnectionBar) :
    (loadSettings settings ec bar).InRange := boundedPort_inRange _

section

variable [Qt]

/-- What `onConnectClicked` has the worker do. -/
def connect (bar : ConnectionBar) : SlotM Unit :=
  EcWorker.connectToDaemon bar.hostEdit.trimmed (.ofInt bar.portSpin.toInt) bar.passEdit

/-- What is saved is loaded again, but for the password, of which the digest is kept or nothing. -/
theorem loadSettings_saveSettings (hhost : bar.hostEdit.trimmed ≠ []) (hport : bar.InRange)
    (settings : QSettings) (ec : RemoteConfEc) :
    loadSettings (bar.saveSettings settings) ec {} =
      { hostEdit := bar.hostEdit.trimmed
        portSpin := bar.portSpin
        passEdit := if bar.rememberCheck then normalizePasswordMd5 bar.passEdit else []
        rememberCheck := bar.rememberCheck } := by
  -- port 0 and an empty host would be replaced by those of `remote.conf`
  have hzero : bar.portSpin ≠ 0 := by
    intro h
    have hlow := hport.1
    rw [h] at hlow
    exact absurd hlow (by decide)
  have hempty : bar.hostEdit.trimmed.isEmpty = false := by simpa using hhost
  cases hremember : bar.rememberCheck <;>
    simp [loadSettings, saveSettings, hremember, hempty, hzero, boundedPort_eq_self hport]

end

end ConnectionBar

namespace LoginWindow

inductive Event
  | typeHost (s : QString)
  | setPort (n : Int32)
  | typePassword (s : QString)
  | toggleRemember
  | connectClicked
  /-- the program is started again, with this `remote.conf` -/
  | started (ec : RemoteConfEc)

variable [Qt]

def onConnectClicked (s : LoginWindow) : LoginWindow :=
  if s.bar.hostEdit.trimmed = [] then s else { s with settings := s.bar.saveSettings s.settings }

def step (s : LoginWindow) : Event → LoginWindow
  | .typeHost text => { s with bar.hostEdit := text }
  | .setPort n => { s with bar.portSpin := ConnectionBar.boundedPort n }
  | .typePassword text => { s with bar.passEdit := text }
  | .toggleRemember => { s with bar.rememberCheck := !s.bar.rememberCheck }
  | .connectClicked => s.onConnectClicked
  | .started ec => { s with bar := .loadSettings s.settings ec {} }

/-- No connect happens: the button does nothing without a host. -/
def Unconnected (s : LoginWindow) (event : Event) : Prop :=
  event = .connectClicked → s.bar.hostEdit.trimmed = []

theorem inRange_step {s : LoginWindow} (h : s.bar.InRange) (event : Event) :
    (s.step event).bar.InRange := by
  cases event with
  | setPort n => exact ConnectionBar.boundedPort_inRange n
  | started ec => exact ConnectionBar.inRange_loadSettings s.settings ec {}
  | connectClicked =>
    rw [step, onConnectClicked]
    split <;> exact h
  | _ => exact h

theorem settings_step {s : LoginWindow} {event : Event} (h : s.Unconnected event) :
    (s.step event).settings = s.settings := by
  cases event with
  | connectClicked => rw [step, onConnectClicked, if_pos (h rfl)]
  | _ => rfl

/-- The settings stay what the last connect made them. -/
theorem settings_run {s : LoginWindow} {events : List Event}
    (h : Run.Along step Unconnected s events) :
    (events.foldl step s).settings = s.settings :=
  Run.foldl_of_invariant (C := Unconnected)
    (fun _ _ hsettings hevent => (settings_step hevent).trans hsettings) rfl h

variable [LawfulQtToLower]

/-- The password field is taken for the password or its digest by its looks alone. -/
theorem connect_normalized {bar : ConnectionBar} : ConnectionBar.connect
    { bar with
      hostEdit := bar.hostEdit.trimmed
      passEdit := normalizePasswordMd5 bar.passEdit } = bar.connect := by
  rw [ConnectionBar.connect, ConnectionBar.connect, QString.trimmed_trimmed,
    EcWorker.connectToDaemon, EcWorker.connectToDaemon, normalizePasswordMd5_normalizePasswordMd5]

/-- In every run: at the first start after a connect, and at any later one before the next
    connect, the bar is that of the connect. If its password was to be remembered, a connect
    does what that one did, with only a digest stored; otherwise nothing of it is left. -/
theorem connect_repeated {before after : List Event} (ec : RemoteConfEc)
    (hhost : (before.foldl step {}).bar.hostEdit.trimmed ≠ [])
    (hafter : Run.Along step Unconnected ((before.foldl step {}).step .connectClicked) after) :
    let bar := (before.foldl step {}).bar
    let s := (after.foldl step ((before.foldl step {}).step .connectClicked)).step (.started ec)
    s.bar.hostEdit = bar.hostEdit.trimmed ∧ s.bar.portSpin = bar.portSpin ∧
      s.bar.rememberCheck = bar.rememberCheck ∧
      (bar.rememberCheck = true → s.bar.connect = bar.connect ∧
        ∃ stored, s.settings.passwordMd5 = some stored ∧ IsDigest stored) ∧
      (bar.rememberCheck = false → s.bar.passEdit = [] ∧ s.settings.passwordMd5 = none) := by
  have hrange : (before.foldl step {}).bar.InRange :=
    List.foldlRecOn before step (motive := fun s => s.bar.InRange) ⟨by decide, by decide⟩
      fun s hs event _ => inRange_step hs event
  generalize before.foldl step {} = s at *
  -- what happens between the connect and the start matters only for the settings
  have hsettings : (after.foldl step (s.step .connectClicked)).settings =
      s.bar.saveSettings s.settings := by
    rw [settings_run hafter, step, onConnectClicked, if_neg hhost]
  generalize after.foldl step (s.step .connectClicked) = s' at *
  have hbar := ConnectionBar.loadSettings_saveSettings hhost hrange s.settings ec
  simp only [step, hsettings, hbar, true_and]
  constructor
  · intro hremember
    refine ⟨?_, normalizePasswordMd5 s.bar.passEdit, ?_, isDigest_normalizePasswordMd5 _⟩
    · rw [if_pos hremember]
      exact connect_normalized
    · simp only [ConnectionBar.saveSettings, hremember, if_true]
  · intro hforget
    simp [ConnectionBar.saveSettings, hforget]

/-- A digest in capitals is typed, and the host with a blank. -/
def Event.typing : List Event :=
  [.typeHost (.lit " nas"), .setPort 70000, .typePassword ConnectionBar.sampleBar.passEdit,
    .toggleRemember]

/-- The bar is emptied, and the program started again. -/
def Event.emptying : List Event :=
  [.typeHost [], .connectClicked, .typePassword [], .toggleRemember, .started ⟨.lit "pc", 1⟩]

omit [Qt] [LawfulQtToLower] in
theorem connect_repeated_emptying :
    letI := sampleQt
    let bar := (Event.typing.foldl step {}).bar
    let s := (Event.emptying.foldl step ((Event.typing.foldl step {}).step .connectClicked)).step
      (.started ⟨[], 0⟩)
    s.bar.hostEdit = .lit "nas" ∧ s.bar.portSpin = 65535 ∧ s.bar.connect = bar.connect := by
  let _ : Qt := sampleQt
  have _ := sampleQt_lawfulToLower
  have htyped : (Event.typing.foldl step {}).bar.hostEdit.trimmed ≠ [] := by decide
  have hemptying : Run.Along step Unconnected
      ((Event.typing.foldl step {}).step .connectClicked) Event.emptying :=
    ⟨by simp [Unconnected], fun _ => rfl, by simp [Unconnected], by simp [Unconnected],
      by simp [Unconnected], trivial⟩
  obtain ⟨hhost, hport, -, hconnect, -⟩ := connect_repeated ⟨[], 0⟩ htyped hemptying
  exact ⟨hhost, hport, (hconnect rfl).1⟩

end LoginWindow

end Amule
