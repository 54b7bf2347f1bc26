import AmuleRemote.Model
import Mathlib.Data.Int.Log
import Mathlib.Data.Rat.Floor

/-!
# Progress, labels and sizes as text

What `model/model.h` and `model/model.cpp` compute for the cells of the tables. The
numbers a `float` or a `double` takes here are neither too large nor too small for
it, so they are rationals that are rounded where the source rounds. Qt translates
the labels and writes a `double` with a number of decimals; both are the class
`QtText`.
-/

namespace Amule

/-- What the tables ask of Qt for their texts. -/
class QtText where
  /-- `QCoreApplication::translate` -/
  translate : (context sourceText : String) → QString
  /-- `QString::number(x, 'f', decimals)` -/
  fixed : (x : ℚ) → (decimals : ℕ) → QString

/-- To the nearest whole number, and from the middle to the even one. -/
def roundEven (x : ℚ) : ℤ :=
  let low := ⌊x⌋
  if 1 / 2 < x - low ∨ (x - low = 1 / 2 ∧ low % 2 = 1) then low + 1 else low

/-- To `bits` significant bits. -/
def roundBits (bits : ℕ) (x : ℚ) : ℚ :=
  let ulp := (2 : ℚ) ^ (Int.log 2 x + 1 - bits)
  roundEven (x / ulp) * ulp

/-- The nearest `double`. -/
def toDouble (x : ℚ) : ℚ := roundBits 53 x

/-- The nearest `float`. -/
def toFloat (x : ℚ) : ℚ := roundBits 24 x

namespace Download

def progress (d : Download) : ℚ :=
  if d.sizeFull = 0 then 0
  else toFloat (toDouble (toDouble d.sizeDone.toNat / toDouble d.sizeFull.toNat))

open Ec in
/-- The cases of `statusLabel`. -/
def statusLabels : List (UInt8 × String) :=
  [(Status.ready, "Downloading"), (Status.empty, "Empty"), (Status.waitingForHash, "Waiting hash"),
    (Status.hashing, "Hashing"), (Status.error, "Error"), (Status.insufficient, "Insufficient"),
    (Status.paused, "Paused"), (Status.completing, "Completing"), (Status.complete, "Complete"),
    (Status.alloc, "Allocating")]

def statusLabel [QtText] (d : Download) : QString :=
  QtText.translate "Model" ((statusLabels.lookup d.status).getD "Unknown")

end Download

namespace Server

/-- A dotted quad. -/
def address (s : Server) : QString :=
  s.ip.val.foldl (fun text octet => text.arg (.number octet.toNat)) (.lit "%1.%2.%3.%4")

def priorityLabel [QtText] (s : Server) : QString :=
  match s.priority with
  | 0 => QtText.translate "Model" "Normal"
  | 1 => QtText.translate "Model" "High"
  | 2 => QtText.translate "Model" "Low"
  | _ => .lit "?"

end Server

section

variable [QtText]

def kSizeUnits : List QString :=
  [.lit "B", .lit "KiB", .lit "MiB", .lit "GiB", .lit "TiB", .lit "PiB"]

/-- The loop over the units, of which `left` are still to come: `v` in the last one it takes, and
    how many it went on by. Dividing a `double` by 1024 is exact. -/
def scaled : (left : ℕ) → (v : ℚ) → ℚ × ℕ
  | 0, v => (v, 0)
  | left + 1, v =>
    if 1024 ≤ v then
      let (w, i) := scaled left (v / 1024)
      (w, i + 1)
    else (v, 0)

def humanBytes (n : UInt64) : QString :=
  let (v, i) := scaled (kSizeUnits.length - 1) (toDouble n.toNat)
  if i = 0 then (QString.lit "%1 B").arg (.number n.toNat)
  else ((QString.lit "%1 %2").arg (QtText.fixed v 2)).arg (kSizeUnits.getD i [])

def humanRate (n : UInt64) : QString := humanBytes n ++ .lit "/s"

def humanCount (n : UInt64) : QString :=
  let value := toDouble n.toNat
  let kUnits : List (String × ℚ) := [("G", 1000000000), ("M", 1000000), ("k", 1000)]
  match kUnits.find? fun u => u.2 ≤ value with
  | some (suffix, div) =>
    ((QString.lit "%1%2").arg (QtText.fixed (toDouble (value / div)) 1)).arg (.lit suffix)
  | none => .number n.toNat

def humanSizePair (done full : UInt64) : QString :=
  let (v, i) := scaled (kSizeUnits.length - 1) (toDouble full.toNat)
  let div : ℚ := 1024 ^ i
  let fmt (x : ℚ) : QString :=
    if i = 0 then .number ⌊x⌋₊
    else if 100 ≤ x then QtText.fixed x 0
    else QtText.fixed x 1
  (((QString.lit "%1 / %2 %3").arg (fmt (toDouble done.toNat / div))).arg (fmt v)).arg
    (kSizeUnits.getD i [])

end

end Amule
