import AmuleRemote.Ec.Worker

/-!
# The remembered password

The connection bar of `mainwindow.cpp` and what it keeps in the settings. The
password is stored as its MD5 digest, and the text that is stored goes back into the
password field at the next start. There it is taken for a digest or a password by
its looks alone, and stored again with every connect.

## Main results

- `Ec.normalizePasswordMd5_digest` — what is stored is taken for a digest
- `ConnectionBar.password_survives` — restarts do not change the login
-/

namespace Amule

open Ec

/-! ## Digests -/

namespace Ec

/-- `0` to `9` and `a` to `f`. -/
def isLowerHexUnit (c : UInt16) : Bool :=
  (0x30 ≤ c.toNat && c.toNat ≤ 0x39) || (0x61 ≤ c.toNat && c.toNat ≤ 0x66)

/-- 32 lowercase hex digits. -/
def IsDigest (s : QString) : Prop := s.length = 32 ∧ ∀ c ∈ s, isLowerHexUnit c = true

theorem isHexUnit_iff {c : UInt16} : isHexUnit c = true ↔
    isLowerHexUnit c = true ∨ 0x41 ≤ c.toNat ∧ c.toNat ≤ 0x46 := by
  simp only [isHexUnit, isLowerHexUnit, Bool.or_eq_true, Bool.and_eq_true, decide_eq_true_eq]
  omega

theorem lt_of_isHexUnit {c : UInt16} (h : isHexUnit c = true) : c.toNat < 0x80 := by
  simp only [isHexUnit, Bool.or_eq_true, Bool.and_eq_true, decide_eq_true_eq] at h
  omega

theorem lowerUnit_of_isLowerHexUnit {c : UInt16} (h : isLowerHexUnit c = true) :
    QString.lowerUnit c = c := by
  have hupper : ¬(0x41 ≤ c.toNat ∧ c.toNat ≤ 0x5A) := by
    simp only [isLowerHexUnit, Bool.or_eq_true, Bool.and_eq_true, decide_eq_true_eq] at h
    omega
  rw [QString.lowerUnit, if_neg (by simpa using hupper)]

theorem isLowerHexUnit_lowerUnit {c : UInt16} (h : isHexUnit c = true) :
    isLowerHexUnit (QString.lowerUnit c) = true := by
  rcases isHexUnit_iff.mp h with hlower | hupper
  · rwa [lowerUnit_of_isLowerHexUnit hlower]
  · have hsum : (c + 0x20).toNat = c.toNat + 0x20 := by
      rw [UInt16.toNat_add]
      exact Nat.mod_eq_of_lt (by change c.toNat + 32 < 65536; omega)
    rw [QString.lowerUnit, if_pos (by simp; omega)]
    simp only [isLowerHexUnit, hsum, Bool.or_eq_true, Bool.and_eq_true, decide_eq_true_eq]
    omega

theorem isLowerHexUnit_hexDigit : ∀ d < 16,
    isLowerHexUnit (.ofNat (QByteArray.toHex.hexDigit d).toNat) = true := by
  decide

theorem length_toHex (bs : QByteArray) : (QByteArray.toHex bs).length = 2 * bs.length := by
  simp [QByteArray.toHex, List.length_flatMap, Nat.mul_comm]

section

variable [Qt]

theorem isDigest_md5Hex (data : QByteArray) : IsDigest (md5Hex data) := by
  refine ⟨?_, fun c hc => ?_⟩
  · rw [md5Hex, QString.fromLatin1, List.length_map, length_toHex, (md5Raw data).property]
  · obtain ⟨b, hb, rfl⟩ := List.mem_map.mp hc
    obtain ⟨byte, -, hbyte⟩ := List.mem_flatMap.mp hb
    have hlt := byte.toNat_lt
    rcases List.mem_pair.mp hbyte with rfl | rfl
    · exact isLowerHexUnit_hexDigit _ (by omega)
    · exact isLowerHexUnit_hexDigit _ (by omega)

variable [LawfulQtToLower]

theorem toLower_of_isHexUnit {s : QString} (h : ∀ c ∈ s, isHexUnit c = true) :
    Qt.toLower s = s.map QString.lowerUnit :=
  LawfulQtToLower.toLower_ascii s fun c hc => lt_of_isHexUnit (h c hc)

/-- Digests are lowercase as they are. -/
theorem IsDigest.toLower {s : QString} (h : IsDigest s) : Qt.toLower s = s := by
  rw [toLower_of_isHexUnit fun c hc => isHexUnit_iff.mpr (.inl (h.2 c hc))]
  exact (List.map_congr_left fun c hc => lowerUnit_of_isLowerHexUnit (h.2 c hc)).trans
    (List.map_id s)

theorem isDigest_normalizePasswordMd5 (input : QString) :
    IsDigest (normalizePasswordMd5 input) := by
  by_cases h : (decide (input.length = 32) && input.all isHexUnit) = true
  · rw [normalizePasswordMd5, if_pos h]
    rw [Bool.and_eq_true, decide_eq_true_eq, List.all_eq_true] at h
    rw [toLower_of_isHexUnit h.2]
    refine ⟨by rw [List.length_map, h.1], fun c hc => ?_⟩
    obtain ⟨typed, htyped, rfl⟩ := List.mem_map.mp hc
    exact isLowerHexUnit_lowerUnit (h.2 typed htyped)
  · rw [normalizePasswordMd5, if_neg h]
    exact isDigest_md5Hex _

/-- A digest is kept as it is, not hashed again. -/
theorem normalizePasswordMd5_digest {s : QString} (h : IsDigest s) :
    normalizePasswordMd5 s = s := by
  have hhex : (decide (s.length = 32) && s.all isHexUnit) = true := by
    rw [Bool.and_eq_true, decide_eq_true_eq, List.all_eq_true]
    exact ⟨h.1, fun c hc => isHexUnit_iff.mpr (.inl (h.2 c hc))⟩
  rw [normalizePasswordMd5, if_pos hhex, h.toLower]

theorem normalizePasswordMd5_normalizePasswordMd5 (input : QString) :
    normalizePasswordMd5 (normalizePasswordMd5 input) = normalizePasswordMd5 input :=
  normalizePasswordMd5_digest (isDigest_normalizePasswordMd5 input)

/-- The AUTH_PASSWD hash of a login with `password`, for the daemon's salt. -/
def loginHash (password : QString) (salt : UInt64) : Hash16 :=
  saltedPasswordHash (Qt.toLower (normalizePasswordMd5 password)) salt

end

end Ec

/-! ## Settings -/

/-- The keys of the settings file that the connection bar is kept under. -/
structure QSettings where
  host : Option QString := none
  port : Option Int32 := none
  remember : Option Bool := none
  passwordMd5 : Option QString := none

/-- What aMule's own `remote.conf` says, read at the first start. -/
structure RemoteConfEc where
  host : QString := []
  port : Int32 := 0

/-- The input fields of the connection bar. -/
structure ConnectionBar where
  hostEdit : QString := []
  portSpin : Int32 := 4712
  passEdit : QString := []
  rememberCheck : Bool := false

namespace ConnectionBar

/-- A port within the range of the spin box. -/
def boundedPort (port : Int32) : Int32 :=
  if port < 1 then 1 else if 65535 < port then 65535 else port

def loadSettings (settings : QSettings) (ec : RemoteConfEc) (bar : ConnectionBar) :
    ConnectionBar :=
  let host := settings.host.getD []
  let port := settings.port.getD 0
  let (host, port) :=
    if host.isEmpty then
      (if ec.host.isEmpty then .lit "127.0.0.1" else ec.host,
        if port = 0 then (if 0 < ec.port then ec.port else 4712) else port)
    else (host, port)
  let port := if port = 0 then 4712 else port
  let remember := settings.remember.getD false
  { hostEdit := host
    portSpin := boundedPort port
    rememberCheck := remember
    passEdit := if remember then settings.passwordMd5.getD [] else bar.passEdit }

section

variable [Qt]

def saveSettings (bar : ConnectionBar) (settings : QSettings) : QSettings :=
  let settings := { settings with
    host := some bar.hostEdit.trimmed
    port := some bar.portSpin
    remember := some bar.rememberCheck }
  if bar.rememberCheck then
    { settings with passwordMd5 := some (normalizePasswordMd5 bar.passEdit) }
  else { settings with passwordMd5 := none }

/-- The settings are saved, and loaded into a new window. -/
def restart (s : QSettings × ConnectionBar) (ec : RemoteConfEc) : QSettings × ConnectionBar :=
  let settings := s.2.saveSettings s.1
  (settings, loadSettings settings ec {})

/-- The password is remembered, as the digest of what was typed. -/
structure Remembers (typed : QString) (s : QSettings × ConnectionBar) : Prop where
  check : s.2.rememberCheck = true
  password : normalizePasswordMd5 s.2.passEdit = normalizePasswordMd5 typed

theorem restart_of_remember {s : QSettings × ConnectionBar} (h : s.2.rememberCheck = true)
    (ec : RemoteConfEc) :
    (restart s ec).1.passwordMd5 = some (normalizePasswordMd5 s.2.passEdit) ∧
      (restart s ec).2.passEdit = normalizePasswordMd5 s.2.passEdit ∧
      (restart s ec).2.rememberCheck = true := by
  have hsaved : s.2.saveSettings s.1 =
      { s.1 with
        host := some s.2.hostEdit.trimmed
        port := some s.2.portSpin
        remember := some true
        passwordMd5 := some (normalizePasswordMd5 s.2.passEdit) } := by
    simp only [saveSettings, h, if_true]
  rw [restart, hsaved]
  exact ⟨rfl, rfl, rfl⟩

variable [LawfulQtToLower]

theorem Remembers.restart {typed : QString} {s : QSettings × ConnectionBar}
    (h : Remembers typed s) (ec : RemoteConfEc) : Remembers typed (restart s ec) := by
  obtain ⟨-, hpassword, hcheck⟩ := restart_of_remember h.check ec
  refine ⟨hcheck, ?_⟩
  rw [hpassword, normalizePasswordMd5_normalizePasswordMd5, h.password]

theorem Remembers.restarts {typed : QString} {s : QSettings × ConnectionBar}
    (h : Remembers typed s) (confs : List RemoteConfEc) :
    Remembers typed (confs.foldl ConnectionBar.restart s) := by
  induction confs generalizing s with
  | nil => exact h
  | cons ec confs ih => exact ih (h.restart ec)

/-- However often the settings are saved and loaded, a connect logs in with the password that was
    typed, and what is stored of it is a digest. -/
theorem password_survives (bar : ConnectionBar) (settings : QSettings)
    (hremember : bar.rememberCheck = true) (confs : List RemoteConfEc) :
    let after := confs.foldl restart (settings, bar)
    (∀ salt, loginHash after.2.passEdit salt = loginHash bar.passEdit salt) ∧
      (∀ host port, EcWorker.connectToDaemon host port after.2.passEdit =
        EcWorker.connectToDaemon host port bar.passEdit) ∧
      ∃ stored, (after.2.saveSettings after.1).passwordMd5 = some stored ∧ IsDigest stored := by
  have hstart : Remembers bar.passEdit (settings, bar) := ⟨hremember, rfl⟩
  have hafter := hstart.restarts confs
  refine ⟨fun salt => ?_, fun host port => ?_, normalizePasswordMd5 bar.passEdit, ?_, ?_⟩
  · rw [loginHash, hafter.password, loginHash]
  · rw [EcWorker.connectToDaemon, hafter.password, EcWorker.connectToDaemon]
  · have hstored := (restart_of_remember hafter.check {}).1
    rw [hafter.password] at hstored
    exact hstored
  · exact isDigest_normalizePasswordMd5 bar.passEdit

end

/-- A digest in capitals, as the test has it. -/
def sampleBar : ConnectionBar where
  passEdit := .lit "900150983CD24FB0D6963F7D28E17F72"
  rememberCheck := true

theorem password_survives_sampleBar :
    letI := sampleQt
    let after := [RemoteConfEc.mk [] 0, ⟨.lit "nas", 4712⟩].foldl restart ({}, sampleBar)
    loginHash after.2.passEdit 0xAB12CD = loginHash sampleBar.passEdit 0xAB12CD ∧
      ∃ stored, (after.2.saveSettings after.1).passwordMd5 = some stored ∧ IsDigest stored := by
  let _ : Qt := sampleQt
  have _ := sampleQt_lawfulToLower
  obtain ⟨hlogin, -, hstored⟩ :=
    password_survives sampleBar {} rfl [⟨[], 0⟩, ⟨.lit "nas", 4712⟩]
  exact ⟨hlogin 0xAB12CD, hstored⟩

end ConnectionBar

end Amule
