import AmuleRemote.App.SpeedGraph
import AmuleRemote.App.Tables
import AmuleRemote.Ec.StatusPath

/-!
# The speed panel of the window

`speedgraph.cpp` with its two modes, in the window that feeds it. The window starts
with the samples of the last session and a banner over them, which is scrolled away
when the program is connected; and whenever it is told a status that is not connected,
it clears the samples.

No connection comes without an attempt before it. So the samples are cleared before
the banner goes, and what was loaded from the file is never painted.

## Main results

- `SpeedGraph.paint_inside` — every LED that is lit lies inside the matrix
- `Shell.speed_shown` — what is painted under the banner are the newest speeds told
  since the program was last told that it is not connected
-/

namespace Amule

open Ec

namespace SpeedGraph

/-! ## What is painted -/

theorem mem_mapM {α β : Type} {f : α → Option β} {l : List α} {bs : List β}
    (h : l.mapM f = some bs) {b : β} (hb : b ∈ bs) : ∃ a ∈ l, f a = some b := by
  induction l generalizing bs with
  | nil =>
    cases h
    cases hb
  | cons a l ih =>
    simp only [List.mapM_cons, Option.bind_eq_bind, Option.bind_eq_some_iff] at h
    obtain ⟨b', hb', bs', hbs', heq⟩ := h
    cases heq
    rcases List.mem_cons.mp hb with rfl | hmem
    · exact ⟨a, List.mem_cons_self, hb'⟩
    · obtain ⟨a', ha', hf⟩ := ih hbs' hmem
      exact ⟨a', List.mem_cons_of_mem a ha', hf⟩

theorem le_max_both (a b : UInt64) : a ≤ max a b ∧ b ≤ max a b := by
  rw [show max a b = if a ≤ b then b else a from rfl]
  split
  · next h => exact ⟨h, UInt64.le_refl b⟩
  · next h => exact ⟨UInt64.le_refl a, UInt64.le_of_lt (UInt64.not_le.mp h)⟩

/-- The peak is at least what the loop has seen. -/
theorem le_peak {g : SpeedGraph} {is : List ℕ} {start peak : UInt64}
    (h : is.foldlM (fun peak i => do
      let d ← g.down[i]?
      let u ← g.up[i]?
      pure (max (max peak d) u)) start = some peak) :
    start ≤ peak ∧ ∀ i ∈ is, ∃ d u, g.down[i]? = some d ∧ g.up[i]? = some u ∧
      d ≤ peak ∧ u ≤ peak := by
  induction is generalizing start with
  | nil =>
    cases h
    exact ⟨UInt64.le_refl _, by simp⟩
  | cons i is ih =>
    simp only [List.foldlM_cons, Option.bind_eq_bind, Option.bind_eq_some_iff] at h
    obtain ⟨next, ⟨d, hd, u, hu, hnext⟩, hrest⟩ := h
    obtain ⟨hle, hall⟩ := ih hrest
    cases hnext
    obtain ⟨hboth, hup⟩ := le_max_both (max start d) u
    obtain ⟨hstart, hdown⟩ := le_max_both start d
    have hpeak := UInt64.le_trans hboth hle
    refine ⟨UInt64.le_trans hstart hpeak, List.forall_mem_cons.mpr ⟨?_, hall⟩⟩
    exact ⟨d, u, hd, hu, UInt64.le_trans hdown hpeak, UInt64.le_trans hup hle⟩

/-- Every LED that is lit lies in a column of the widget, and is of no more than the peak. -/
theorem paint_inside {g : SpeedGraph} {cols : ℕ} {trace : SpeedTrace}
    (h : g.paint cols = some trace) : ∀ led ∈ trace.leds,
      0 ≤ led.column ∧ led.column < cols ∧ led.value ≤ trace.peak := by
  simp only [paint, Option.bind_eq_bind, Option.bind_eq_some_iff] at h
  obtain ⟨peak, hpeak, leds, hleds, heq⟩ := h
  cases heq
  intro led hled
  obtain ⟨part, hpart, hmem⟩ := List.mem_flatten.mp hled
  obtain ⟨i, hi, hat⟩ := mem_mapM hleds hpart
  obtain ⟨hfirst, hlast⟩ := List.mem_range'_1.mp hi
  have hlt : i < g.down.length := by omega
  obtain ⟨d, u, hd, hu, hdpeak, hupeak⟩ := (le_peak hpeak).2 i (List.mem_range.mpr hlt)
  simp only [ledsAt, hd, hu, Option.bind_eq_bind, Option.bind_some, Option.pure_def,
    Option.some.injEq] at hat
  have hcolumn :
      (0 : ℤ) ≤ cols - (g.down.length - i) ∧ (cols : ℤ) - (g.down.length - i) < cols := by
    omega
  rw [← hat] at hmem
  rcases List.mem_cons.mp hmem with rfl | hup
  · exact ⟨hcolumn.1, hcolumn.2, hdpeak⟩
  · split at hup
    · rw [List.mem_singleton.mp hup]
      exact ⟨hcolumn.1, hcolumn.2, hupeak⟩
    · cases hup

/-! ## The newest samples -/

/-- The graph of these speeds. -/
def ofStats (speeds : List Stats) : SpeedGraph :=
  { down := trim (speeds.map Stats.dlSpeed), up := trim (speeds.map Stats.ulSpeed) }

theorem trim_concat (samples : List UInt64) (v : UInt64) :
    trim (trim samples ++ [v]) = trim (samples ++ [v]) := by
  by_cases h : samples.length ≤ kMaxSamples
  · rw [trim_of_le h]
  · -- one sample more than fits falls out in both
    have hfull : (samples.drop (samples.length - kMaxSamples) ++ [v]).length - kMaxSamples = 1 := by
      rw [List.length_append, List.length_drop, List.length_singleton]
      omega
    have hover : (samples ++ [v]).length - kMaxSamples = samples.length - kMaxSamples + 1 := by
      rw [List.length_append, List.length_singleton]
      omega
    rw [trim_eq_drop samples, trim_eq_drop, hfull, trim_eq_drop, hover, ← List.drop_drop,
      List.drop_append_of_le_length (Nat.sub_le _ _)]

theorem addSample_ofStats (speeds : List Stats) (stats : Stats) :
    (ofStats speeds).addSample stats.dlSpeed stats.ulSpeed = ofStats (speeds ++ [stats]) := by
  simp only [ofStats, addSample, trim_concat, List.map_append, List.map_singleton]

theorem balanced_ofStats (speeds : List Stats) : (ofStats speeds).Balanced :=
  (balanced_trim _ _).mpr (by rw [List.length_map, List.length_map])

end SpeedGraph

/-! ## The panel -/

/-- `SpeedGraph`, of which `graph` has the samples. -/
structure SpeedPanel where
  graph : SpeedGraph := {}
  /-- `mode_` is `Message` -/
  messageMode : Bool := false
  message : QString := []
  scrollCols : ℕ := 0
  /-- `dismissTimer_` is active -/
  dismissing : Bool := false

/-- What a paint draws over the dim matrix: the message from a column on, or the graph. -/
inductive Painted
  | message (x : ℤ)
  | graph (trace : Option SpeedTrace)
deriving DecidableEq

namespace SpeedPanel

def showMessage (p : SpeedPanel) (text : QString) : SpeedPanel :=
  { p with message := text, scrollCols := 0, messageMode := true, dismissing := false }

def dismissMessage (p : SpeedPanel) : SpeedPanel :=
  if p.messageMode then { p with dismissing := true } else p

/-- `dismissTimer_` fires. -/
def timeout (p : SpeedPanel) : SpeedPanel :=
  if p.dismissing then { p with scrollCols := p.scrollCols + 2 } else p

/-- A paint in `cols` columns, of which the message takes `w` in the font that is chosen. -/
def paintEvent (p : SpeedPanel) (cols w : ℕ) : SpeedPanel × Painted :=
  if p.messageMode = true ∧ p.message ≠ [] then
    let x : ℤ := ((cols : ℤ) - w).tdiv 2 - p.scrollCols
    if 0 ≤ x + w then (p, .message x)
    else
      -- fully scrolled off
      ({ p with messageMode := false, dismissing := false }, .graph (p.graph.paint cols))
  else (p, .graph (p.graph.paint cols))

/-- What `MainWindow::onStatusChanged` does to the panel. -/
def onStatusChanged (p : SpeedPanel) (status : ConnStatus) : SpeedPanel :=
  let p := if status = .connected then p.dismissMessage else p
  if status ≠ .connected then { p with graph := p.graph.clear } else p

def onStats (p : SpeedPanel) (stats : Stats) : SpeedPanel :=
  { p with graph := p.graph.addSample stats.dlSpeed stats.ulSpeed }

/-- A signal arrives. The others do not concern the panel. -/
def receive (p : SpeedPanel) : Signal → SpeedPanel
  | .statusChanged status _ => p.onStatusChanged status
  | .statsUpdated stats => p.onStats stats
  | _ => p

/-- What the window's constructor does: the samples of `file`, and a banner over them. -/
def start (file : Option SpeedHistory) (banner : QString) : SpeedPanel :=
  let p := onStatusChanged {} .disconnected
  { p with graph := p.graph.load file }.showMessage banner

end SpeedPanel

/-- The panel and the program around it. -/
structure Shell where
  system : System := {}
  panel : SpeedPanel := {}
  /-- the signals that the window has taken -/
  received : List Signal := []

namespace Shell

/-- What happens next: a step of the system, a tick of the panel's timer or a paint. -/
inductive Action
  | system (act : System.Action)
  | timeout
  | paint (cols w : ℕ)

/-- What is taken arrives at the panel. -/
def take (s : Shell) (signals : List Signal) : Shell :=
  { s with panel := signals.foldl SpeedPanel.receive s.panel, received := s.received ++ signals }

def step [Qt] (s : Shell) : Action → Shell
  | .system act =>
    { s with system := s.system.step act }.take ((s.system.takes act).map Message.signal)
  | .timeout => { s with panel := s.panel.timeout }
  | .paint cols w => { s with panel := (s.panel.paintEvent cols w).1 }

end Shell

/-! ## Under the banner -/

/-- The status that a signal tells. -/
def Signal.status : Signal → Option ConnStatus
  | .statusChanged status _ => some status
  | _ => none

theorem statuses_eq (trace : List Event) :
    statuses trace = (emitted trace).filterMap Signal.status := by
  rw [statuses, emitted, List.filterMap_filterMap]
  congr
  funext ev
  cases ev with
  | exchange client request reply => rfl
  | emit client signal => cases signal <;> rfl

/-- The speeds told since the program was last told that it is not connected. -/
def Stats.since (speeds : List Stats) : Signal → List Stats
  | .statusChanged status _ => if status = .connected then speeds else []
  | .statsUpdated stats => speeds ++ [stats]
  | _ => speeds

def recent (received : List Signal) : List Stats := received.foldl Stats.since []

namespace SpeedPanel

/-- The banner has not begun to move. -/
structure Bannered (p : SpeedPanel) : Prop where
  mode : p.messageMode = true
  message : p.message ≠ []
  scroll : p.scrollCols = 0
  still : p.dismissing = false

variable {p : SpeedPanel}

theorem Bannered.receive (h : p.Bannered) {signal : Signal}
    (hsignal : signal.status ≠ some .connected) : (p.receive signal).Bannered := by
  cases signal with
  | statusChanged status detail =>
    have hne : status ≠ .connected := fun heq => hsignal (congrArg some heq)
    simp only [SpeedPanel.receive, onStatusChanged, if_neg hne, if_pos hne]
    exact ⟨h.mode, h.message, h.scroll, h.still⟩
  | statsUpdated stats => exact ⟨h.mode, h.message, h.scroll, h.still⟩
  | _ => exact h

theorem Bannered.timeout (h : p.Bannered) : p.timeout = p := by
  rw [SpeedPanel.timeout, if_neg (Bool.eq_false_iff.mp h.still)]

/-- A banner that does not move hides the graph, however wide it is. -/
theorem Bannered.paintEvent (h : p.Bannered) (cols w : ℕ) :
    ∃ x, p.paintEvent cols w = (p, .message x) := by
  have hx : 0 ≤ ((cols : ℤ) - w).tdiv 2 - p.scrollCols + w := by
    rw [h.scroll]
    by_cases hle : w ≤ cols
    · rw [Int.tdiv_eq_ediv_of_nonneg (by omega)]
      omega
    · -- a wide message begins left of the panel, by half of what it is too wide
      have hneg : ((cols : ℤ) - w).tdiv 2 = -(((w : ℤ) - cols) / 2) := by
        rw [← Int.neg_sub, Int.neg_tdiv, Int.tdiv_eq_ediv_of_nonneg (by omega)]
      rw [hneg]
      omega
  exact ⟨_, by rw [SpeedPanel.paintEvent, if_pos ⟨h.mode, h.message⟩, if_pos hx]⟩

theorem graph_timeout (p : SpeedPanel) : p.timeout.graph = p.graph := by
  rw [SpeedPanel.timeout]
  split <;> rfl

theorem graph_paintEvent (p : SpeedPanel) (cols w : ℕ) :
    (p.paintEvent cols w).1.graph = p.graph := by
  simp only [SpeedPanel.paintEvent]
  split
  · split <;> rfl
  · rfl

theorem graph_dismissMessage (p : SpeedPanel) : p.dismissMessage.graph = p.graph := by
  rw [dismissMessage]
  split <;> rfl

theorem graph_receive {speeds : List Stats} (h : p.graph = .ofStats speeds) (signal : Signal) :
    (p.receive signal).graph = .ofStats (Stats.since speeds signal) := by
  cases signal with
  | statusChanged status detail =>
    by_cases hstatus : status = .connected
    · simp only [SpeedPanel.receive, onStatusChanged, Stats.since, hstatus, if_true, ne_eq,
        not_true_eq_false, if_false, graph_dismissMessage, h]
    · simp only [SpeedPanel.receive, onStatusChanged, Stats.since, ne_eq, hstatus, if_false,
        not_false_eq_true, if_true]
      rfl
  | statsUpdated stats =>
    rw [SpeedPanel.receive, onStats, h]
    exact SpeedGraph.addSample_ofStats speeds stats
  | _ => exact h

/-- What is received leaves the banner until a connection is told, and clears the samples for
    good once it is told that there is none. -/
structure Follows (p : SpeedPanel) (received : List Signal) : Prop where
  banner : (∀ signal ∈ received, signal.status ≠ some .connected) → p.Bannered
  graph : (∃ signal ∈ received, ∃ status, signal.status = some status ∧ status ≠ .connected) →
    p.graph = .ofStats (recent received)

theorem Follows.receive {received : List Signal} (h : p.Follows received) (signal : Signal) :
    (p.receive signal).Follows (received ++ [signal]) where
  banner hnone := by
    obtain ⟨hbefore, hsignal⟩ := List.forall_mem_append.mp hnone
    exact (h.banner hbefore).receive (hsignal signal (List.mem_singleton_self signal))
  graph := by
    rintro ⟨other, hmem, status, hstatus, hne⟩
    rw [recent, List.foldl_concat]
    rcases List.mem_append.mp hmem with hold | hnew
    · exact graph_receive (h.graph ⟨other, hold, status, hstatus, hne⟩) signal
    · obtain rfl := List.mem_singleton.mp hnew
      cases other with
      | statusChanged status' detail =>
        obtain rfl : status' = status := Option.some.inj hstatus
        simp only [SpeedPanel.receive, onStatusChanged, Stats.since, if_neg hne, if_pos hne]
        rfl
      | _ => cases hstatus

theorem Follows.foldl {received : List Signal} (h : p.Follows received) (signals : List Signal) :
    (signals.foldl SpeedPanel.receive p).Follows (received ++ signals) := by
  induction signals generalizing p received with
  | nil => rwa [List.append_nil]
  | cons signal signals ih =>
    rw [List.foldl_cons, List.append_cons]
    exact ih (h.receive signal)

theorem follows_start (file : Option SpeedHistory) {banner : QString} (hbanner : banner ≠ []) :
    (start file banner).Follows [] :=
  ⟨fun _ => ⟨rfl, hbanner, rfl, rfl⟩, by simp⟩

end SpeedPanel

namespace Shell

variable [Qt] {s : Shell}

/-- The panel follows what it has received, which is a beginning of what the worker tells. -/
structure Faithful (s : Shell) : Prop where
  follows : s.panel.Follows s.received
  told : s.received ++ s.system.signals.map Message.signal = emitted s.system.session.trace
  path : s.system.session.OnPath

theorem Faithful.step (h : s.Faithful) (act : Action) : (s.step act).Faithful := by
  cases act with
  | system act =>
    obtain ⟨events, htrace, hsignals⟩ := s.system.step_signals act
    refine ⟨h.follows.foldl _, ?_, ?_⟩
    · show s.received ++ (s.system.takes act).map Message.signal ++
        (s.system.step act).signals.map Message.signal = emitted (s.system.step act).session.trace
      rw [List.append_assoc, ← List.map_append, hsignals, ← List.append_assoc, h.told, htrace,
        emitted_append]
    · show (s.system.step act).session.OnPath
      rcases s.system.session_step act with hsame | ⟨c, hcall⟩
      · exact hsame ▸ h.path
      · exact hcall ▸ h.path.step c
  | timeout =>
    refine ⟨⟨fun hnone => ?_, fun htold => ?_⟩, h.told, h.path⟩
    · have hbannered := h.follows.banner hnone
      show s.panel.timeout.Bannered
      rwa [hbannered.timeout]
    · exact (s.panel.graph_timeout).trans (h.follows.graph htold)
  | paint cols w =>
    refine ⟨⟨fun hnone => ?_, fun htold => ?_⟩, h.told, h.path⟩
    · have hbannered := h.follows.banner hnone
      obtain ⟨x, hx⟩ := hbannered.paintEvent cols w
      show (s.panel.paintEvent cols w).1.Bannered
      rwa [hx]
    · exact (s.panel.graph_paintEvent cols w).trans (h.follows.graph htold)

omit [Qt] in
/-- No connection is told before it is told that there is none. -/
theorem Faithful.told_before (h : s.Faithful) {signal : Signal} (hmem : signal ∈ s.received)
    (hconnected : signal.status = some .connected) :
    ∃ signal ∈ s.received, ∃ status, signal.status = some status ∧ status ≠ .connected := by
  have hstatuses : statuses s.system.session.trace =
      s.received.filterMap Signal.status ++
        (s.system.signals.map Message.signal).filterMap Signal.status := by
    rw [statuses_eq, ← h.told, List.filterMap_append]
  have hpath := h.path.path
  rw [hstatuses] at hpath
  have hin : ConnStatus.connected ∈ s.received.filterMap Signal.status :=
    List.mem_filterMap.mpr ⟨signal, hmem, hconnected⟩
  cases hreceived : s.received.filterMap Signal.status with
  | nil =>
    rw [hreceived] at hin
    cases hin
  | cons first rest =>
    -- the first status told comes after the initial one
    rw [hreceived, List.cons_append, List.isChain_cons_cons] at hpath
    have hfirst : first ≠ .connected := by
      rcases hpath.1 with rfl | rfl <;> decide
    have hmem' : first ∈ s.received.filterMap Signal.status := by
      rw [hreceived]
      exact List.mem_cons_self
    obtain ⟨signal', hsignal', hstatus⟩ := List.mem_filterMap.mp hmem'
    exact ⟨signal', hsignal', first, hstatus, hfirst⟩

/-- In every run, whatever file was loaded: what is painted of the graph are the newest speeds
    told since the program was last told that it is not connected, and all of it lies inside
    the matrix. -/
theorem speed_shown (file : Option SpeedHistory) {banner : QString} (hbanner : banner ≠ [])
    (acts : List Action) (cols w : ℕ) {painted : Option SpeedTrace}
    (h : ((acts.foldl step { panel := .start file banner }).panel.paintEvent cols w).2 =
      .graph painted) :
    ∃ trace, painted = some trace ∧
      (SpeedGraph.ofStats (recent
        (acts.foldl step { panel := .start file banner }).received)).paint cols = some trace ∧
      ∀ led ∈ trace.leds, 0 ≤ led.column ∧ led.column < cols ∧ led.value ≤ trace.peak := by
  have hpath : ({} : Session).OnPath := ⟨.singleton _, by decide, fun h => absurd rfl h⟩
  have hstart : Shell.Faithful { panel := .start file banner } :=
    ⟨SpeedPanel.follows_start file hbanner, rfl, hpath⟩
  have hrun : (acts.foldl step { panel := .start file banner }).Faithful :=
    List.foldlRecOn acts step hstart fun s hs act _ => hs.step act
  generalize acts.foldl step { panel := .start file banner } = s at *
  -- the graph is painted, so the banner has gone, so a connection was told
  have hconnected : ¬∀ signal ∈ s.received, signal.status ≠ some .connected := by
    intro hnone
    obtain ⟨x, hx⟩ := (hrun.follows.banner hnone).paintEvent cols w
    rw [hx] at h
    cases h
  push Not at hconnected
  obtain ⟨signal, hmem, hstatus⟩ := hconnected
  have hgraph := hrun.follows.graph (hrun.told_before hmem hstatus)
  obtain ⟨trace, htrace⟩ := (SpeedGraph.balanced_ofStats (recent s.received)).inRange cols
  refine ⟨trace, ?_, htrace, SpeedGraph.paint_inside htrace⟩
  have hpainted : painted = s.panel.graph.paint cols := by
    simp only [SpeedPanel.paintEvent] at h
    split at h
    · split at h
      · cases h
      · exact (Painted.graph.inj h).symm
    · exact (Painted.graph.inj h).symm
  rw [hpainted, hgraph, htrace]

/-- A connection, told to the window, and the banner scrolled away. -/
def connecting : List Action :=
  [.system (.connectClicked (.lit "localhost") 4712 []), .system (.run .friendly)] ++
    List.replicate 6 (.system .delivered) ++ [.timeout, .timeout]

omit [Qt] in
/-- The file was cut off after its first list. -/
theorem speed_shown_connecting :
    letI := sampleQt
    let s := connecting.foldl step { panel := .start (some ⟨kMagic, [5], []⟩) (.lit "hello") }
    ∃ trace, s.panel.graph.paint 3 = some trace ∧
      (SpeedGraph.ofStats (recent s.received)).paint 3 = some trace ∧
      ∀ led ∈ trace.leds, 0 ≤ led.column ∧ led.column < 3 ∧ led.value ≤ trace.peak :=
  letI := sampleQt
  speed_shown (some ⟨kMagic, [5], []⟩) (by decide) connecting 3 1 (by decide +kernel)

end Shell

end Amule
