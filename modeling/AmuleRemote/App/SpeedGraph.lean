import AmuleRemote.Lib.Run
import AmuleRemote.Qt

/-!
# The speed graph's samples

The two sample buffers of `speedgraph.cpp`, filled by `addSample` once per
refresh and by `load` from the file of an earlier session. Painting walks over the
download buffer and reads the upload buffer at the same places. `QList::at` has a
value only inside the list, so painting has a result only where every access is
in range. The LED row that a value is rounded to, the message mode and the texts
are left out.
-/

namespace Amule

/-- "SPG1" -/
def kMagic : UInt32 := 0x53504731

def kMaxSamples : ℕ := 180

/-- `while (samples.size() > kMaxSamples) samples.removeFirst();` -/
def trim : List UInt64 → List UInt64
  | [] => []
  | v :: samples => if kMaxSamples < samples.length + 1 then trim samples else v :: samples

/-- What the stream yields of a file that can be opened. -/
structure SpeedHistory where
  magic : UInt32
  down : List UInt64
  up : List UInt64
deriving DecidableEq

structure SpeedGraph where
  down : List UInt64 := []
  up : List UInt64 := []
deriving DecidableEq

/-- A lit LED: its column and the value whose row it is in. -/
structure Led where
  column : ℤ
  value : UInt64
  upload : Bool
deriving DecidableEq

/-- What one paint shows of the samples. -/
structure SpeedTrace where
  peak : UInt64
  leds : List Led
  curDown : UInt64
  curUp : UInt64
deriving DecidableEq

namespace SpeedGraph

def addSample (g : SpeedGraph) (downBytesPerSec upBytesPerSec : UInt64) : SpeedGraph :=
  { down := trim (g.down ++ [downBytesPerSec]), up := trim (g.up ++ [upBytesPerSec]) }

def clear (_ : SpeedGraph) : SpeedGraph := {}

def save (g : SpeedGraph) : SpeedHistory := ⟨kMagic, g.down, g.up⟩

/-- `none` is a file that cannot be opened. -/
def load (g : SpeedGraph) : Option SpeedHistory → SpeedGraph
  | none => g
  | some file => if file.magic = kMagic then { down := trim file.down, up := trim file.up } else g

def peak (g : SpeedGraph) : Option UInt64 :=
  (List.range g.down.length).foldlM (fun peak i => do
    let d ← g.down[i]?
    let u ← g.up[i]?
    pure (max (max peak d) u)) 1

/-- The LEDs of the sample at `i`, right-aligned in `cols` columns. -/
def ledsAt (g : SpeedGraph) (cols : ℕ) (i : ℕ) : Option (List Led) := do
  let c : ℤ := cols - (g.down.length - i)
  let d ← g.down[i]?
  let u ← g.up[i]?
  pure (⟨c, d, false⟩ :: if 0 < u then [⟨c, u, true⟩] else [])

/-- `paintEvent` in a widget of `cols` columns, from the peak on. -/
def paint (g : SpeedGraph) (cols : ℕ) : Option SpeedTrace := do
  let n := g.down.length
  let peak ← g.peak
  let first := n - cols
  let leds ← (List.range' first (n - first)).mapM (g.ledsAt cols)
  pure ⟨peak, leds.flatten, g.down.getLastD 0, g.up.getLastD 0⟩

inductive Op
  | addSample (downBytesPerSec upBytesPerSec : UInt64)
  | clear
  | load (file : Option SpeedHistory)
deriving DecidableEq

def step (g : SpeedGraph) : Op → SpeedGraph
  | .addSample d u => g.addSample d u
  | .clear => g.clear
  | .load file => g.load file

/-- Equally many samples in both buffers, not too many, and painting stays in range. -/
structure Balanced (g : SpeedGraph) : Prop where
  equal : g.down.length = g.up.length
  bound : g.down.length ≤ kMaxSamples
  inRange : ∀ cols, ∃ trace, g.paint cols = some trace

/-- A file that is loaded leaves equally many samples once the buffers are trimmed. -/
def Op.Even : Op → Prop
  | .load (some file) =>
    file.magic = kMagic → min file.down.length kMaxSamples = min file.up.length kMaxSamples
  | _ => True

/-! ## Trimming -/

theorem trim_eq_drop (samples : List UInt64) :
    trim samples = samples.drop (samples.length - kMaxSamples) := by
  induction samples with
  | nil => rfl
  | cons v samples ih =>
    rw [trim, List.length_cons]
    by_cases h : kMaxSamples < samples.length + 1
    · have hsub : samples.length + 1 - kMaxSamples = samples.length - kMaxSamples + 1 := by omega
      rw [if_pos h, ih, hsub, List.drop_succ_cons]
    · have hsub : samples.length + 1 - kMaxSamples = 0 := by omega
      rw [if_neg h, hsub, List.drop_zero]

theorem length_trim (samples : List UInt64) :
    (trim samples).length = min samples.length kMaxSamples := by
  rw [trim_eq_drop, List.length_drop]
  omega

theorem trim_of_le {samples : List UInt64} (h : samples.length ≤ kMaxSamples) :
    trim samples = samples := by
  rw [trim_eq_drop, Nat.sub_eq_zero_of_le h, List.drop_zero]

/-! ## Painting -/

/-- A loop whose reads all succeed has a result. -/
theorem exists_foldlM {α β : Type} {f : β → α → Option β} {l : List α}
    (h : ∀ b, ∀ a ∈ l, ∃ b', f b a = some b') (b : β) : ∃ b', l.foldlM f b = some b' := by
  induction l generalizing b with
  | nil => exact ⟨b, rfl⟩
  | cons a l ih =>
    obtain ⟨b', hb'⟩ := h b a List.mem_cons_self
    obtain ⟨b'', hb''⟩ := ih (fun b c hc => h b c (List.mem_cons_of_mem a hc)) b'
    exact ⟨b'', by rw [List.foldlM_cons, hb']; exact hb''⟩

theorem exists_mapM {α β : Type} {f : α → Option β} {l : List α}
    (h : ∀ a ∈ l, ∃ b, f a = some b) : ∃ bs, l.mapM f = some bs := by
  induction l with
  | nil => exact ⟨[], rfl⟩
  | cons a l ih =>
    obtain ⟨b, hb⟩ := h a List.mem_cons_self
    obtain ⟨bs, hbs⟩ := ih fun c hc => h c (List.mem_cons_of_mem a hc)
    exact ⟨b :: bs, by simp [List.mapM_cons, hb, hbs]⟩

theorem exists_paint {g : SpeedGraph} (h : g.down.length ≤ g.up.length) (cols : ℕ) :
    ∃ trace, g.paint cols = some trace := by
  have hread : ∀ i < g.down.length, ∃ d u, g.down[i]? = some d ∧ g.up[i]? = some u := fun i hi =>
    ⟨_, _, List.getElem?_eq_getElem hi, List.getElem?_eq_getElem (hi.trans_le h)⟩
  have hpeak : ∃ peak, g.peak = some peak := by
    refine exists_foldlM (fun peak i hi => ?_) 1
    obtain ⟨d, u, hd, hu⟩ := hread i (List.mem_range.mp hi)
    exact ⟨max (max peak d) u, by simp [hd, hu]⟩
  have hleds : ∃ leds, (List.range' (g.down.length - cols)
      (g.down.length - (g.down.length - cols))).mapM (g.ledsAt cols) = some leds := by
    refine exists_mapM fun i hi => ?_
    obtain ⟨d, u, hd, hu⟩ := hread i (by have := List.mem_range'_1.mp hi; omega)
    exact ⟨_, by simp only [ledsAt, hd, hu]; rfl⟩
  obtain ⟨peak, hpeak⟩ := hpeak
  obtain ⟨leds, hleds⟩ := hleds
  exact ⟨_, by simp only [paint, hpeak, hleds]; rfl⟩

theorem balanced_iff {g : SpeedGraph} :
    g.Balanced ↔ g.down.length = g.up.length ∧ g.down.length ≤ kMaxSamples :=
  ⟨fun h => ⟨h.equal, h.bound⟩, fun h => ⟨h.1, h.2, exists_paint h.1.le⟩⟩

/-! ## Runs -/

theorem balanced_trim (down up : List UInt64) : SpeedGraph.Balanced ⟨trim down, trim up⟩ ↔
    min down.length kMaxSamples = min up.length kMaxSamples := by
  simp only [balanced_iff, length_trim]
  exact ⟨And.left, fun h => ⟨h, Nat.min_le_right _ _⟩⟩

theorem step_balanced_iff (g : SpeedGraph) (op : Op) (h : g.Balanced) :
    (g.step op).Balanced ↔ op.Even := by
  cases op with
  | addSample d u =>
    refine iff_of_true ?_ trivial
    rw [step, addSample, balanced_trim, List.length_append, List.length_append, h.equal]
    rfl
  | clear => exact iff_of_true (balanced_iff.mpr ⟨rfl, Nat.zero_le _⟩) trivial
  | load file =>
    cases file with
    | none => exact iff_of_true h trivial
    | some file =>
      by_cases hmagic : file.magic = kMagic
      · rw [step, load, if_pos hmagic, balanced_trim, Op.Even]
        exact ⟨fun heven _ => heven, fun heven => heven hmagic⟩
      · rw [step, load, if_neg hmagic]
        exact iff_of_true h fun hsame => absurd hsame hmagic

/-- The buffers stay balanced exactly through the runs that load only even files. -/
theorem balanced_iff_even (ops : List Op) :
    Run.Always step Balanced {} ops ↔ ∀ op ∈ ops, op.Even := by
  have hempty : Balanced {} := balanced_iff.mpr ⟨rfl, Nat.zero_le _⟩
  have hstep : ∀ g op, True → Balanced g → (Balanced (step g op) ↔ op.Even) :=
    fun g op _ => step_balanced_iff g op
  rw [Run.always_iff_along hstep (fun _ _ => trivial) hempty, Run.along_iff_forall]

/-- A file cut off after its first list, loaded at the start; the next paint reads outside the
    upload buffer. -/
theorem not_balanced_of_truncated :
    ¬Run.Always step Balanced {} [.load (some ⟨kMagic, [5], []⟩)] ∧
      (step {} (.load (some ⟨kMagic, [5], []⟩))).paint 10 = none := by
  refine ⟨fun h => ?_, by decide⟩
  exact absurd h.2.equal (by decide)

/-- What a balanced graph saves is loaded unchanged. -/
theorem load_save {g : SpeedGraph} (h : g.Balanced) (g' : SpeedGraph) :
    g'.load (some g.save) = g := by
  have hup : g.up.length ≤ kMaxSamples := h.equal ▸ h.bound
  rw [load, save, if_pos rfl, trim_of_le h.bound, trim_of_le hup]

end SpeedGraph

end Amule
