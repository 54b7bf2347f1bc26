import AmuleRemote.App.DownloadTable
import AmuleRemote.App.SortKeys
import AmuleRemote.App.Tables
import AmuleRemote.Ec.Listings

/-!
# The menus of the tables

Downloads, search results and servers are commanded by their rows: a context menu is
opened on some rows of a table, the hashes or the address are taken from the model
then, and the entry that is chosen goes to the worker with them. The tables may have
changed by the time it is chosen, and may have lost the rows; the daemon may be a
different one. Yet a request is never about anything that no daemon has listed.

The environment is the user: which rows are there to be clicked is Qt's to say, and Qt
shows only rows of the model. A menu keeps everything else waiting but the signals, of
which the model makes no use.

## Main results

- `Desk.targets_listed` — a request names only what replies before it have listed
-/

namespace Amule

open Ec

namespace Ec.Prio

abbrev low : UInt8 := 0
abbrev normal : UInt8 := 1
abbrev high : UInt8 := 2
/-- `PR_AUTO` of aMule -/
abbrev auto : UInt8 := 10

end Ec.Prio

/-! ## Rows -/

def SearchResultModel.hashAt (m : SearchResultModel) (row : ℕ) : Hash16 :=
  (m.results[row]?.map fun r => r.hash).getD (Octets.zero 16)

namespace ServerTableModel

def ipAt (m : ServerTableModel) (row : ℕ) : ServerIp :=
  (m.servers[row]?.map fun s => s.ip).getD (Octets.zero 4)

def portAt (m : ServerTableModel) (row : ℕ) : UInt16 :=
  (m.servers[row]?.map fun s => s.port).getD 0

end ServerTableModel

/-! ## Menus -/

/-- The entries of the download table's menu. -/
inductive DownloadEntry
  | pause
  | resume
  | stop
  | low
  | normal
  | high
  | auto
  /-- and the user says yes -/
  | delete

def DownloadEntry.slot (entry : DownloadEntry) (hash : Hash16) : Slot :=
  match entry with
  | .pause => .pause hash
  | .resume => .resume hash
  | .stop => .stop hash
  | .low => .setPriority hash Prio.low
  | .normal => .setPriority hash Prio.normal
  | .high => .setPriority hash Prio.high
  | .auto => .setPriority hash Prio.auto
  | .delete => .remove hash

/-- The menu that is open, with what it was opened on. -/
inductive Menu
  | downloads (hashes : List Hash16)
  | server (ip : ServerIp) (port : UInt16)
  /-- the result clicked, and whether its tab is the live one -/
  | result (clicked : SearchResult) (live : Bool)

def Menu.targets : Menu → List Target
  | .downloads hashes => hashes.map .download
  | .server ip port => [.server ip port]
  | .result clicked _ => [.result clicked.hash]

/-- The main window with its tables, the worker and their queues. -/
structure Desk where
  system : System := {}
  screen : MainWindow.Screen := {}
  servers : ServerTableModel := {}
  menu : Option Menu := none

/-- The action is not a command about a row of a table. -/
def System.Action.Untargeted : System.Action → Prop
  | .commanded slot _ => slot.target = none
  | _ => True

namespace Desk

/-- What happens next. -/
inductive Action
  | system (act : System.Action) (h : act.Untargeted)
  | clearClicked
  | downloadMenu (selected : List ℕ) (clicked : ℕ)
  | serverMenu (row : ℕ)
  /-- on a row of the tab at `index` -/
  | resultMenu (index row : ℕ)
  | dismissed
  | downloadChosen (entry : DownloadEntry)
  | connectChosen
  | removeChosen
  | resultChosen
  /-- the download button, a double click or the menu's entry, with the tab at `index` in front -/
  | selectedResults (index : ℕ) (rows : List ℕ)

/-- Commands one after the other. -/
def enqueue (s : Desk) (slots : List Slot) : Desk :=
  { s with system := slots.foldl (fun system slot => system.enqueue { slot }) s.system }

/-- A signal arrives at the tables. The search panel is part of the system. -/
def receive (s : Desk) (m : Message) : Desk :=
  match m.signal with
  | .downloadsUpdated queue => { s with screen := s.screen.step (.downloadsUpdated queue) }
  | .statusChanged status _ => { s with screen := s.screen.step (.statusChanged status) }
  | .serversUpdated servers => { s with servers := ⟨servers⟩ }
  | _ => s

def onTableContextMenu (s : Desk) (selected : List ℕ) (clicked : ℕ) : Desk :=
  let shown (row : ℕ) : Bool := row < s.screen.model.downloads.length
  if shown clicked && selected.all shown then
    let rows := if selected.isEmpty then [clicked] else selected
    { s with menu := some (.downloads (rows.map s.screen.model.hashAt)) }
  else s

def onServerContextMenu (s : Desk) (row : ℕ) : Desk :=
  if row < s.servers.servers.length then
    { s with menu := some (.server (s.servers.ipAt row) (s.servers.portAt row)) }
  else s

def onResultContextMenu (s : Desk) (index row : ℕ) : Desk :=
  match s.system.window.search.tabs[index]? with
  | none => s
  | some tab =>
    match tab.results[row]? with
    | none => s
    | some clicked =>
      { s with menu := some (.result clicked (s.system.window.search.live = some tab.number)) }

/-- `onDownload`: only the live tab's results are in the daemon. -/
def onDownload (s : Desk) (index : ℕ) (rows : List ℕ) : Desk :=
  match s.system.window.search.tabs[index]? with
  | none => s
  | some tab =>
    if s.system.window.search.live = some tab.number then
      let hashes := rows.map (SearchResultModel.hashAt ⟨tab.results⟩)
      s.enqueue ((hashes.filter (· ≠ Octets.zero 16)).map .downloadResult)
    else s

/-- What is chosen of the menu of the downloads. -/
def chosen (s : Desk) (entry : DownloadEntry) (hashes : List Hash16) : Desk :=
  let s := s.enqueue (hashes.map entry.slot)
  match entry with
  | .delete => { s with screen := s.screen.step (.deleteDownloads hashes) }
  | _ => s

def step [Qt] (s : Desk) : Action → Desk
  | .system act _ =>
    (s.system.takes act).foldl receive { s with system := s.system.step act }
  | .clearClicked =>
    if s.system.window.connected then
      { s with screen := s.screen.step .clearCompleted }.enqueue [.clearCompleted]
    else s
  | .downloadMenu selected clicked => s.onTableContextMenu selected clicked
  | .serverMenu row => s.onServerContextMenu row
  | .resultMenu index row => s.onResultContextMenu index row
  | .dismissed => { s with menu := none }
  | .downloadChosen entry =>
    match s.menu with
    | some (.downloads hashes) => { s with menu := none }.chosen entry hashes
    | _ => s
  | .connectChosen =>
    match s.menu with
    | some (.server ip port) => { s with menu := none }.enqueue [.serverConnect ip port]
    | _ => s
  | .removeChosen =>
    match s.menu with
    | some (.server ip port) => { s with menu := none }.enqueue [.serverRemove ip port]
    | _ => s
  | .resultChosen =>
    match s.menu with
    | some (.result clicked live) =>
      if live && clicked.hash ≠ Octets.zero 16 then
        { s with menu := none }.enqueue [.downloadResult clicked.hash]
      else { s with menu := none }
    | _ => s
  | .selectedResults index rows => s.onDownload index rows

end Desk

/-! ## Where the targets come from -/

namespace MainWindow

/-- What is told to the window with an action. -/
def Action.told : Action → List Download
  | .downloadsUpdated queue => queue
  | .clearCompleted | .deleteDownloads _ | .statusChanged _ => []

/-- The downloads that the window keeps. -/
def kept (w : MainWindow) : List Download := w.lastQueue ++ w.retainedCompleted

theorem kept_step (w : MainWindow) (act : Action) :
    ∀ x ∈ (w.step act).kept, ∃ d ∈ w.kept ++ act.told, d.hash = x.hash := by
  intro x hx
  have hsame (hold : x ∈ w.kept) : ∃ d ∈ w.kept ++ act.told, d.hash = x.hash :=
    ⟨x, List.mem_append_left _ hold, rfl⟩
  cases act with
  | downloadsUpdated queue =>
    rcases List.mem_append.mp hx with hqueue | hretained
    · exact ⟨x, List.mem_append_right _ hqueue, rfl⟩
    · rcases mem_retained_onDownloadsUpdated hretained with hold | ⟨d, ⟨-, -, hd⟩, rfl⟩
      · exact hsame (List.mem_append_right _ hold)
      · -- a completed download is taken from the queue or from the one before
        refine ⟨d, ?_, rfl⟩
        rcases hd with hd | ⟨hd, -⟩
        · exact List.mem_append_right _ hd
        · exact List.mem_append_left _ (List.mem_append_left _ hd)
  | clearCompleted =>
    rcases List.mem_append.mp hx with hqueue | hretained
    · exact hsame (List.mem_append_left _ hqueue)
    · exact absurd hretained List.not_mem_nil
  | deleteDownloads hashes =>
    rcases List.mem_append.mp hx with hqueue | hretained
    · exact hsame (List.mem_append_left _ hqueue)
    · exact hsame (List.mem_append_right _ (mem_retained_deleteDownloads.mp hretained).1)
  | statusChanged status =>
    cases status with
    | disconnected => exact absurd hx List.not_mem_nil
    | connecting | connected | error => exact hsame hx

/-- The view is made of what is kept. -/
theorem shown_refreshDownloadView (w : MainWindow) : w.refreshDownloadView.shown ⊆ w.kept :=
  List.append_subset.mpr ⟨List.subset_append_left _ _,
    List.subset_append_of_subset_right _ (List.filter_sublist).subset⟩

namespace Screen

/-- The downloads behind the rows, and those that the window keeps. -/
def downloads (s : Screen) : List Download := s.window.kept ++ s.model.downloads

theorem downloads_step (s : Screen) (act : Action) :
    ∀ x ∈ (s.step act).downloads, ∃ d ∈ s.downloads ++ act.told, d.hash = x.hash := by
  have hkept : ∀ x ∈ (s.window.step act).kept, ∃ d ∈ s.downloads ++ act.told, d.hash = x.hash := by
    intro x hx
    obtain ⟨d, hd, hhash⟩ := s.window.kept_step act x hx
    refine ⟨d, ?_, hhash⟩
    rcases List.mem_append.mp hd with hd | hd
    · exact List.mem_append_left _ (List.mem_append_left _ hd)
    · exact List.mem_append_right _ hd
  have hshown (hrows : (s.step act).model.downloads ⊆ (s.window.step act).kept) :
      ∀ x ∈ (s.step act).downloads, ∃ d ∈ s.downloads ++ act.told, d.hash = x.hash :=
    fun x hx => hkept x ((List.mem_append.mp hx).elim id fun hx => hrows hx)
  cases act with
  | statusChanged status =>
    -- after a disconnect the window has no downloads, but the rows stay
    intro x hx
    rcases List.mem_append.mp hx with hx | hx
    · exact hkept x hx
    · exact ⟨x, List.mem_append_left _ (List.mem_append_right _ hx), rfl⟩
  | downloadsUpdated queue | clearCompleted | deleteDownloads hashes =>
    refine hshown ?_
    simp only [step, DownloadTableModel.downloads_setDownloads]
    exact shown_refreshDownloadView _

end Screen

end MainWindow

namespace SearchPanel

/-- The results that are stored in tabs. -/
def results (panel : SearchPanel) : List SearchResult := panel.tabs.flatMap SearchTab.results

theorem results_setResults (panel : SearchPanel) (new : List SearchResult) (source : ℕ) :
    (panel.setResults new source).results ⊆ panel.results ++ new := by
  rw [setResults]
  split
  · exact List.subset_append_left _ _
  · intro r hr
    obtain ⟨tab', htab', hr⟩ := List.mem_flatMap.mp hr
    obtain ⟨tab, htab, rfl⟩ := List.mem_map.mp htab'
    split at hr
    · exact List.mem_append_right _ hr
    · exact List.mem_append_left _ (List.mem_flatMap.mpr ⟨tab, htab, hr⟩)

/-- A new tab has no results. -/
theorem results_onSearch {panel panel' : SearchPanel} {query fileType : QString} {kind : SearchKind}
    {params : Option SearchParams}
    (h : panel.onSearch query kind fileType = (panel', params)) :
    panel'.results = panel.results := by
  rw [onSearch] at h
  split at h
  · rw [(Prod.mk.inj h).1]
  · obtain ⟨rfl, -⟩ := Prod.mk.inj h
    rw [results, makeResultTab, List.flatMap_append, List.flatMap_singleton, List.append_nil]
    rfl

theorem results_onTabClose {panel panel' : SearchPanel} {index : ℕ} {stops : Bool}
    (h : panel.onTabClose index = (panel', stops)) : panel'.results ⊆ panel.results := by
  have htabs : panel'.tabs = panel.tabs.eraseIdx index := by
    rw [onTabClose] at h
    split at h <;> exact (congrArg tabs (Prod.mk.inj h).1).symm
  rw [results, htabs]
  intro r hr
  obtain ⟨tab, htab, hr⟩ := List.mem_flatMap.mp hr
  exact List.mem_flatMap.mpr ⟨tab, List.mem_of_mem_eraseIdx htab, hr⟩

end SearchPanel

namespace System

/-- The targets in the queues and in the tabs. -/
def mentions (s : System) : Set Target :=
  {t | (∃ c ∈ s.commands, c.slot.target = some t) ∨ (∃ m ∈ s.signals, t ∈ m.signal.targets) ∨
    ∃ r ∈ s.window.search.results, t = .result r.hash}

/-- Targets come in with replies and go out with requests. -/
def vocabulary : Provenance.Vocabulary System Event Target where
  trace s := s.session.trace
  mentions := mentions
  brings ev := {t | t ∈ ev.listed}
  uses ev := {t | t ∈ ev.targets}

variable {s s' : System}

theorem mentions_mono (hcommands : s'.commands ⊆ s.commands) (hsignals : s'.signals ⊆ s.signals)
    (hresults : s'.window.search.results ⊆ s.window.search.results) :
    s'.mentions ⊆ s.mentions := by
  rintro t (⟨c, hc, ht⟩ | ⟨m, hm, ht⟩ | ⟨r, hr, ht⟩)
  · exact .inl ⟨c, hcommands hc, ht⟩
  · exact .inr (.inl ⟨m, hsignals hm, ht⟩)
  · exact .inr (.inr ⟨r, hresults hr, ht⟩)

theorem mentions_enqueue (s : System) (command : Command) :
    (s.enqueue command).mentions ⊆ s.mentions ∪ {t | command.slot.target = some t} := by
  rintro t (⟨c, hc, ht⟩ | hrest)
  · rcases List.mem_append.mp hc with hc | hc
    · exact .inl (.inl ⟨c, hc, ht⟩)
    · exact .inr (List.mem_singleton.mp hc ▸ ht)
  · exact .inl (.inr hrest)

/-- A command about nothing in particular. -/
theorem mentions_enqueue_untargeted (s : System) {command : Command}
    (h : command.slot.target = none) : (s.enqueue command).mentions ⊆ s.mentions := by
  refine (s.mentions_enqueue command).trans (Set.union_subset (Set.Subset.refl _) fun t ht => ?_)
  rw [Set.mem_ofPred_eq, h] at ht
  cases ht

/-- The results that arrive are stored in a tab. -/
theorem mentions_receive {m : Message} {signals : List Message}
    (hsignals : s.signals = m :: signals) :
    mentions { s with window := s.window.receive m, signals } ⊆ s.mentions := by
  have hm : m ∈ s.signals := hsignals ▸ List.mem_cons_self
  have hwindow (results : List SearchResult) (hresults : m.signal = .searchResultsUpdated results ∨
        results = []) (hreceived : (s.window.receive m).search.results ⊆
        s.window.search.results ++ results) :
      mentions { s with window := s.window.receive m, signals } ⊆ s.mentions := by
    rintro t (hcommand | ⟨m', hm', ht⟩ | ⟨r, hr, rfl⟩)
    · exact .inl hcommand
    · exact .inr (.inl ⟨m', hsignals ▸ List.mem_cons_of_mem m hm', ht⟩)
    · rcases List.mem_append.mp (hreceived hr) with hold | hnew
      · exact .inr (.inr ⟨r, hold, rfl⟩)
      · rcases hresults with hresults | rfl
        · refine .inr (.inl ⟨m, hm, ?_⟩)
          rw [hresults]
          exact List.mem_map_of_mem hnew
        · exact absurd hnew List.not_mem_nil
  cases hsignal : m.signal with
  | searchResultsUpdated results =>
    refine hwindow results (.inl hsignal) ?_
    rw [Window.receive, hsignal]
    exact s.window.search.results_setResults results m.search
  | _ =>
    refine hwindow [] (.inr rfl) ?_
    rw [Window.receive, hsignal, List.append_nil]
    exact List.Subset.refl _

section

variable [Qt]

/-- A call asks about the target of its slot, and its signals tell of what its replies list. -/
theorem call_passes (hsession : s'.session = s.session) (hmentions : s'.mentions ⊆ s.mentions)
    {c : Call} (hslot : ∀ t, c.slot.target = some t → t ∈ s.mentions) :
    vocabulary.Passes s (s'.call c) := by
  obtain ⟨events, heffect⟩ := s'.call_spec c
  obtain ⟨events', htrace, hcourse⟩ := s'.session.step_course c
  -- the effect knows of the queues and the course of the requests: they are of one trace
  obtain rfl : events' = events := List.append_cancel_left (htrace.symm.trans heffect.trace)
  have hsent : (s'.call c).session.trace = s.session.trace ++ events' := by
    rw [← hsession]
    exact htrace
  refine ⟨events', hsent, ?_, ?_⟩
  · exact fun ev hev t ht => hslot t (hcourse.names_target ev hev t ht)
  · rintro t (⟨command, hcommand, ht⟩ | ⟨m, hm, ht⟩ | ⟨r, hr, ht⟩)
    · exact .inl (hmentions (.inl ⟨command, hcommand, ht⟩))
    · rcases heffect.mem_signals hm with hold | ⟨-, hemit⟩
      · exact .inl (hmentions (.inr (.inl ⟨m, hold, ht⟩)))
      · have hshown : t ∈ shown events' :=
          List.mem_flatMap.mpr ⟨m.signal, List.mem_filterMap.mpr ⟨_, hemit, rfl⟩, ht⟩
        exact .inr (List.mem_flatMap.mp (hcourse.shown_listed hshown))
    · exact .inl (hmentions (.inr (.inr ⟨r, hr, ht⟩)))

theorem step_passes (s : System) {act : Action} (h : act.Untargeted) :
    vocabulary.Passes s (s.step act) := by
  have hidle : vocabulary.Passes s s := .quiet rfl (Set.Subset.refl _)
  have hcommand {command : Command} (htarget : command.slot.target = none) :
      vocabulary.Passes s (s.enqueue command) :=
    .quiet rfl (s.mentions_enqueue_untargeted htarget)
  have hsearch {search : SearchPanel} (hresults : search.results ⊆ s.window.search.results) :
      mentions { s with window := { s.window with search } } ⊆ s.mentions :=
    mentions_mono (List.Subset.refl _) (List.Subset.refl _) hresults
  cases act with
  | commanded slot hroutine => exact hcommand h
  | run network =>
    rw [step]
    split
    · exact hidle
    · next c commands hcommands =>
      have hc : c ∈ s.commands := hcommands ▸ List.mem_cons_self
      have htail : mentions { s with commands } ⊆ s.mentions :=
        mentions_mono (hcommands ▸ List.subset_cons_self _ _) (List.Subset.refl _)
          (List.Subset.refl _)
      refine call_passes ?_ htail ?_
      · rfl
      · exact fun t ht => .inl ⟨c, hc, ht⟩
  | timerFired network => exact call_passes rfl (Set.Subset.refl _) (by simp [Slot.target])
  | delivered =>
    rw [step]
    split
    · exact hidle
    · next hsignals => exact .quiet rfl (mentions_receive hsignals)
  | searchClicked query kind fileType =>
    rw [step]
    split
    · exact hidle
    · next hclick =>
      exact .quiet rfl ((mentions_enqueue_untargeted _ rfl).trans
        (hsearch (SearchPanel.results_onSearch hclick ▸ List.Subset.refl _)))
  | tabClosed index =>
    rw [step]
    split
    · next hclose =>
      exact .quiet rfl ((mentions_enqueue_untargeted _ rfl).trans
        (hsearch (SearchPanel.results_onTabClose hclose)))
    · next hclose => exact .quiet rfl (hsearch (SearchPanel.results_onTabClose hclose))
  | edited panel =>
    rw [step]
    split
    · exact .quiet rfl
        (mentions_mono (List.Subset.refl _) (List.Subset.refl _) (List.Subset.refl _))
    · exact hidle
  | connectClicked host port password =>
    rw [step]
    split
    · exact hidle
    · exact hcommand rfl
  | disconnectClicked | applyClicked | reloadClicked =>
    rw [step]
    split
    · exact hcommand rfl
    · exact hidle

end

end System

/-- What is taken from the worker was waiting. -/
theorem System.takes_subset [Qt] (s : System) (act : System.Action) : s.takes act ⊆ s.signals := by
  cases act with
  | delivered => exact List.take_subset _ _
  | _ => exact List.nil_subset _

namespace Desk

/-- The targets behind the rows, and those of the menu. -/
def tables (s : Desk) : List Target :=
  (Signal.downloadsUpdated s.screen.downloads).targets ++
    (Signal.serversUpdated s.servers.servers).targets ++ s.menu.toList.flatMap Menu.targets

def vocabulary : Provenance.Vocabulary Desk Event Target where
  trace s := s.system.session.trace
  mentions s := s.system.mentions ∪ {t | t ∈ s.tables}
  brings ev := {t | t ∈ ev.listed}
  uses ev := {t | t ∈ ev.targets}

theorem mem_tables {s : Desk} {t : Target} : t ∈ s.tables ↔
    t ∈ (Signal.downloadsUpdated s.screen.downloads).targets ∨
      t ∈ (Signal.serversUpdated s.servers.servers).targets ∨
      ∃ menu, s.menu = some menu ∧ t ∈ menu.targets := by
  simp [tables]

theorem mem_tables_screen {s : Desk} (act : MainWindow.Action) {t : Target}
    (h : t ∈ tables { s with screen := s.screen.step act }) :
    t ∈ s.tables ∨ t ∈ (Signal.downloadsUpdated act.told).targets := by
  rcases mem_tables.mp h with hrow | hrest
  · obtain ⟨x, hx, rfl⟩ := List.mem_map.mp hrow
    obtain ⟨d, hd, hhash⟩ := s.screen.downloads_step act x hx
    rw [← hhash]
    rcases List.mem_append.mp hd with hd | hd
    · exact .inl (mem_tables.mpr (.inl (List.mem_map_of_mem hd)))
    · exact .inr (List.mem_map_of_mem hd)
  · exact .inl (mem_tables.mpr (.inr hrest))

theorem system_receive (s : Desk) (m : Message) : (s.receive m).system = s.system := by
  rw [receive]
  split <;> rfl

theorem mem_tables_receive {s : Desk} {m : Message} {t : Target} (h : t ∈ (s.receive m).tables) :
    t ∈ s.tables ∨ t ∈ m.signal.targets := by
  rw [receive] at h
  split at h
  · next hsignal =>
    rw [hsignal]
    exact mem_tables_screen _ h
  · exact .inl ((mem_tables_screen _ h).elim id fun hnone => absurd hnone List.not_mem_nil)
  · next hsignal =>
    rcases mem_tables.mp h with hrow | hserver | hmenu
    · exact .inl (mem_tables.mpr (.inl hrow))
    · exact .inr (hsignal ▸ hserver)
    · exact .inl (mem_tables.mpr (.inr (.inr hmenu)))
  · exact .inl h

theorem system_foldl_receive (s : Desk) (messages : List Message) :
    (messages.foldl receive s).system = s.system := by
  induction messages generalizing s with
  | nil => rfl
  | cons m messages ih => rw [List.foldl_cons, ih, system_receive]

theorem mem_tables_foldl_receive {s : Desk} {messages : List Message} {t : Target}
    (h : t ∈ (messages.foldl receive s).tables) :
    t ∈ s.tables ∨ ∃ m ∈ messages, t ∈ m.signal.targets := by
  induction messages generalizing s with
  | nil => exact .inl h
  | cons m messages ih =>
    rcases ih h with h | ⟨m', hm', ht⟩
    · exact (mem_tables_receive h).imp_right fun ht => ⟨m, List.mem_cons_self, ht⟩
    · exact .inr ⟨m', List.mem_cons_of_mem m hm', ht⟩

theorem enqueue_cons (s : Desk) (slot : Slot) (slots : List Slot) :
    s.enqueue (slot :: slots) = { s with system := s.system.enqueue { slot } }.enqueue slots := rfl

/-- Commands are about what they are given. -/
theorem enqueue_passes {s s' : Desk} (hsession : s'.system.session = s.system.session)
    (hmentions : s'.system.mentions ⊆ vocabulary.mentions s)
    (htables : ∀ t ∈ s'.tables, t ∈ vocabulary.mentions s) {slots : List Slot}
    (hslots : ∀ slot ∈ slots, ∀ t, slot.target = some t → t ∈ vocabulary.mentions s) :
    vocabulary.Passes s (s'.enqueue slots) := by
  induction slots generalizing s' with
  | nil => exact .quiet (congrArg Session.trace hsession) (Set.union_subset hmentions htables)
  | cons slot slots ih =>
    obtain ⟨hslot, hslots⟩ := List.forall_mem_cons.mp hslots
    rw [enqueue_cons]
    refine ih hsession ?_ htables hslots
    exact (s'.system.mentions_enqueue _).trans (Set.union_subset hmentions hslot)

/-- The menu that is open or that is opened has targets of the tables. -/
theorem mentions_menu {s : Desk} {menu : Option Menu}
    (h : ∀ m ∈ menu, ∀ t ∈ m.targets, t ∈ vocabulary.mentions s) :
    vocabulary.mentions { s with menu } ⊆ vocabulary.mentions s := by
  refine Set.union_subset Set.subset_union_left fun t ht => ?_
  rcases mem_tables.mp ht with hrow | hserver | ⟨m, hm, ht⟩
  · exact .inr (mem_tables.mpr (.inl hrow))
  · exact .inr (mem_tables.mpr (.inr (.inl hserver)))
  · exact h m hm t ht

theorem passes_menu {s : Desk} {menu : Option Menu}
    (h : ∀ m ∈ menu, ∀ t ∈ m.targets, t ∈ vocabulary.mentions s) :
    vocabulary.Passes s { s with menu } := .quiet rfl (mentions_menu h)

/-- Commands about the targets of the menu that was open. -/
theorem passes_chosen {s : Desk} {menu : Menu} (hmenu : s.menu = some menu) {slots : List Slot}
    (hslots : ∀ slot ∈ slots, ∀ t, slot.target = some t → t ∈ menu.targets) :
    vocabulary.Passes s (enqueue { s with menu := none } slots) := by
  have hclosed : vocabulary.mentions { s with menu := none } ⊆ vocabulary.mentions s :=
    mentions_menu (by simp)
  refine enqueue_passes ?_ ?_ ?_ ?_
  · rfl
  · exact Set.subset_union_left.trans hclosed
  · exact fun t ht => hclosed (.inr ht)
  · intro slot hslot t ht
    exact .inr (mem_tables.mpr (.inr (.inr ⟨menu, hmenu, hslots slot hslot t ht⟩)))

theorem target_slot (entry : DownloadEntry) (hash : Hash16) :
    (entry.slot hash).target = some (.download hash) := by
  cases entry <;> rfl

theorem chosen_passes {s : Desk} (entry : DownloadEntry) {hashes : List Hash16}
    (h : s.menu = some (.downloads hashes)) :
    vocabulary.Passes s (chosen { s with menu := none } entry hashes) := by
  have hsent : vocabulary.Passes s (enqueue { s with menu := none } (hashes.map entry.slot)) := by
    refine passes_chosen h fun slot hslot t ht => ?_
    obtain ⟨hash, hhash, rfl⟩ := List.mem_map.mp hslot
    rw [target_slot] at ht
    exact Option.some.inj ht ▸ List.mem_map_of_mem hhash
  cases entry with
  | delete =>
    -- what the window has retained of them goes too
    obtain ⟨events, htrace, huses, hmentions⟩ := hsent
    refine ⟨events, htrace, huses, (Set.union_subset Set.subset_union_left ?_).trans hmentions⟩
    exact fun t ht => .inr ((mem_tables_screen _ ht).elim id fun hnone =>
      absurd hnone List.not_mem_nil)
  | _ => exact hsent

/-- A row of the table is a download that is listed there. -/
theorem mem_hashAt {s : Desk} {row : ℕ} (h : row < s.screen.model.downloads.length) :
    .download (s.screen.model.hashAt row) ∈ vocabulary.mentions s := by
  refine .inr (mem_tables.mpr (.inl ?_))
  rw [DownloadTableModel.hashAt, List.getElem?_eq_getElem h]
  exact List.mem_map_of_mem (List.mem_append_right _ (List.getElem_mem h))

theorem mem_result {s : Desk} {tab : SearchTab} {index row : ℕ} {r : SearchResult}
    (htab : s.system.window.search.tabs[index]? = some tab) (hr : tab.results[row]? = some r) :
    .result r.hash ∈ vocabulary.mentions s :=
  .inl (.inr (.inr ⟨r, List.mem_flatMap.mpr
    ⟨tab, List.mem_of_getElem? htab, List.mem_of_getElem? hr⟩, rfl⟩))

theorem onTableContextMenu_passes (s : Desk) (selected : List ℕ) (clicked : ℕ) :
    vocabulary.Passes s (s.onTableContextMenu selected clicked) := by
  rw [onTableContextMenu]
  split
  · next hrows =>
    simp only [Bool.and_eq_true, decide_eq_true_eq, List.all_eq_true] at hrows
    have hshown : ∀ row ∈ (if selected.isEmpty then [clicked] else selected),
        row < s.screen.model.downloads.length := by
      split
      · exact List.forall_mem_singleton.mpr hrows.1
      · exact hrows.2
    refine passes_menu fun menu hmenu t ht => ?_
    obtain rfl := Option.some.inj hmenu
    obtain ⟨hash, hhash, rfl⟩ := List.mem_map.mp ht
    obtain ⟨row, hrow, rfl⟩ := List.mem_map.mp hhash
    exact mem_hashAt (hshown row hrow)
  · exact .quiet rfl (Set.Subset.refl _)

theorem onServerContextMenu_passes (s : Desk) (row : ℕ) :
    vocabulary.Passes s (s.onServerContextMenu row) := by
  rw [onServerContextMenu]
  split
  · next h =>
    refine passes_menu fun menu hmenu t ht => ?_
    obtain rfl := Option.some.inj hmenu
    obtain rfl := List.mem_singleton.mp ht
    refine .inr (mem_tables.mpr (.inr (.inl ?_)))
    rw [ServerTableModel.ipAt, ServerTableModel.portAt, List.getElem?_eq_getElem h]
    exact List.mem_map_of_mem (f := fun s : Server => Target.server s.ip s.port)
      (List.getElem_mem h)
  · exact .quiet rfl (Set.Subset.refl _)

theorem onResultContextMenu_passes (s : Desk) (index row : ℕ) :
    vocabulary.Passes s (s.onResultContextMenu index row) := by
  rw [onResultContextMenu]
  split
  · exact .quiet rfl (Set.Subset.refl _)
  · next htab =>
    split
    · exact .quiet rfl (Set.Subset.refl _)
    · next hclicked =>
      refine passes_menu fun menu hmenu t ht => ?_
      obtain rfl := Option.some.inj hmenu
      obtain rfl := List.mem_singleton.mp ht
      exact mem_result htab hclicked

/-- Rows that are not there have the hash of no result. -/
theorem onDownload_passes (s : Desk) (index : ℕ) (rows : List ℕ) :
    vocabulary.Passes s (s.onDownload index rows) := by
  rw [onDownload]
  split
  · exact .quiet rfl (Set.Subset.refl _)
  · next tab htab =>
    split
    · refine enqueue_passes rfl Set.subset_union_left (fun t ht => .inr ht) ?_
      intro slot hslot t ht
      obtain ⟨hash, hhash, rfl⟩ := List.mem_map.mp hslot
      obtain rfl := Option.some.inj ht
      obtain ⟨hrow, hne⟩ := List.mem_filter.mp hhash
      obtain ⟨row, -, rfl⟩ := List.mem_map.mp hrow
      cases hresult : tab.results[row]? with
      | none => simp [SearchResultModel.hashAt, hresult] at hne
      | some r =>
        rw [SearchResultModel.hashAt, hresult]
        exact mem_result htab hresult
    · exact .quiet rfl (Set.Subset.refl _)

theorem step_passes [Qt] (s : Desk) (act : Action) : vocabulary.Passes s (s.step act) := by
  have hidle : vocabulary.Passes s s := .quiet rfl (Set.Subset.refl _)
  cases act with
  | system act h =>
    obtain ⟨events, htrace, huses, hmentions⟩ := s.system.step_passes h
    have hsystem := system_foldl_receive { s with system := s.system.step act }
      (s.system.takes act)
    refine ⟨events, ?_, ?_, ?_⟩
    · exact (congrArg (·.session.trace) hsystem).trans htrace
    · exact fun ev hev t ht => .inl (huses ev hev ht)
    · rintro t (ht | ht)
      · rw [step, hsystem] at ht
        exact (hmentions ht).imp_left .inl
      · rcases mem_tables_foldl_receive ht with ht | ⟨m, hm, ht⟩
        · exact .inl (.inr ht)
        · exact .inl (.inl (.inr (.inl ⟨m, s.system.takes_subset act hm, ht⟩)))
  | clearClicked =>
    rw [step]
    split
    · refine enqueue_passes ?_ ?_ ?_ ?_
      · rfl
      · exact Set.subset_union_left
      · intro t ht
        exact .inr ((mem_tables_screen _ ht).elim id fun hnone => absurd hnone List.not_mem_nil)
      · simp [Slot.target]
    · exact hidle
  | downloadMenu selected clicked => exact s.onTableContextMenu_passes selected clicked
  | serverMenu row => exact s.onServerContextMenu_passes row
  | resultMenu index row => exact s.onResultContextMenu_passes index row
  | dismissed => exact passes_menu (by simp)
  | downloadChosen entry =>
    rw [step]
    split
    · next hmenu => exact chosen_passes entry hmenu
    · exact hidle
  | connectChosen | removeChosen =>
    rw [step]
    split
    · next hmenu =>
      refine passes_chosen hmenu ?_
      simp [Slot.target, Menu.targets]
    · exact hidle
  | resultChosen =>
    rw [step]
    split
    · next hmenu =>
      split
      · refine passes_chosen hmenu ?_
        simp [Slot.target, Menu.targets]
      · exact passes_menu (by simp)
    · exact hidle
  | selectedResults index rows => exact s.onDownload_passes index rows

/-- In every run, a request names only downloads, results and servers that replies before it
    have listed. -/
theorem targets_listed [Qt] (acts : List Action) :
    Trace.Throughout (fun before ev => ev.targets ⊆ listed before)
      (acts.foldl step {}).system.session.trace := by
  have hstart : vocabulary.Borrowed {} := by
    refine ⟨?_, Trace.throughout_nil⟩
    rintro t ((⟨c, hc, -⟩ | ⟨m, hm, -⟩ | ⟨r, hr, -⟩) | ht)
    · exact absurd hc List.not_mem_nil
    · exact absurd hm List.not_mem_nil
    · exact absurd hr List.not_mem_nil
    · exact absurd ht List.not_mem_nil
  intro before ev after heq t ht
  exact List.mem_flatMap.mpr ((hstart.run step_passes acts).uses before ev after heq ht)

end Desk

end Amule
