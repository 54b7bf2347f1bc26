import AmuleRemote.App.Anchoring
import AmuleRemote.App.Menus
import Mathlib.Data.Finset.Sort

/-!
# What the user has picked

The views of the tables, with their selections, around the window of `App.Menus`. A
selection is a set of rows, and a command that is given for it takes the hashes of
these rows from the model; but between the selection and the command the model may
have been given other rows, more than once. Rows that are taken in place have the keys
that they had; any other change takes the selection away. So a request is never about
anything but what the user has selected or clicked, as it was shown to him then.

## Main results

- `Views.targets_picked` — a request names only what the user has picked before it
-/

namespace Amule

open Ec

/-- What the user picks in the tables, and what the worker does. -/
inductive Deed
  | picks (targets : List Target)
  | works (ev : Event)

namespace Deed

def picked : Deed → List Target
  | .picks targets => targets
  | .works _ => []

def event : Deed → Option Event
  | .picks _ => none
  | .works ev => some ev

/-- What the request of a deed names. -/
def targets : Deed → List Target
  | .picks _ => []
  | .works ev => ev.targets

end Deed

namespace Desk

/-- The action is not one on selected rows. -/
def Action.Unselected : Action → Prop
  | .downloadMenu _ _ | .selectedResults _ _ => False
  | _ => True

/-- The downloads in these rows. -/
def downloadsAt (s : Desk) (rows : List ℕ) : List Target :=
  rows.filterMap fun row => s.screen.model.downloads[row]?.map fun d => .download d.hash

/-- The results in these rows of the tab at `index`. -/
def resultsAt (s : Desk) (index : ℕ) (rows : List ℕ) : List Target :=
  match s.system.window.search.tabs[index]? with
  | none => []
  | some tab => rows.filterMap fun row => tab.results[row]?.map fun r => .result r.hash

def serverAt (s : Desk) (row : ℕ) : List Target :=
  (s.servers.servers[row]?.map fun server => Target.server server.ip server.port).toList

/-- What is in the rows that an action is about. -/
def asked (s : Desk) : Action → List Target
  | .downloadMenu selected clicked =>
    s.downloadsAt (if selected.isEmpty then [clicked] else selected)
  | .serverMenu row => s.serverAt row
  | .resultMenu index row => s.resultsAt index [row]
  | .selectedResults index rows => s.resultsAt index rows
  | _ => []

end Desk

/-- The results in the tab with this number. -/
def SearchPanel.resultsOf (panel : SearchPanel) (number : ℕ) : List SearchResult :=
  ((panel.tabs.find? fun tab => tab.number = number).map fun tab => tab.results).getD []

/-- The window with the selections of its views. -/
structure Views where
  desk : Desk := {}
  downloads : ViewSelection := {}
  /-- the selection in each tab, by the tab's number -/
  results : ℕ → ViewSelection := fun _ => {}
  history : List Deed := []

namespace Views

/-- What happens next. The rows that are read off a view come in an order of Qt's. -/
inductive Action
  | selectDownloads (selection : ViewSelection)
  /-- in the tab at `index` -/
  | selectResults (index : ℕ) (selection : ViewSelection)
  | downloadMenu (selected : List ℕ) (clicked : ℕ)
  | download (index : ℕ) (selected : List ℕ)
  | other (act : Desk.Action) (h : act.Unselected)

/-- What the user picks by the action. -/
def picks (s : Views) : Action → List Target
  | .selectDownloads selection => s.desk.downloadsAt selection.rows.sort
  | .selectResults index selection => s.desk.resultsAt index selection.rows.sort
  -- the row under the cursor
  | .downloadMenu _ clicked => s.desk.downloadsAt [clicked]
  | .download _ _ => []
  | .other act _ => s.desk.asked act

/-- What the action is to the window. -/
def deskAction (s : Views) : Action → Option Desk.Action
  | .selectDownloads _ | .selectResults _ _ => none
  | .downloadMenu selected clicked =>
    if selected.toFinset = s.downloads.rows then some (.downloadMenu selected clicked) else none
  | .download index selected =>
    match s.desk.system.window.search.tabs[index]? with
    | none => none
    | some tab =>
      if selected.toFinset = (s.results tab.number).rows then some (.selectedResults index selected)
      else none
  | .other act _ => some act

def after [Qt] (s : Views) (act : Action) : Desk :=
  match s.deskAction act with
  | none => s.desk
  | some act => s.desk.step act

/-- The models have gone over from `s.desk` to `desk`, and have told the views. Rows that were not
    set are found as they were, which is as if they had been taken in place. -/
def notified (s : Views) (desk : Desk) : Views :=
  { s with
    desk
    downloads := s.downloads.notified
      (s.desk.screen.model.setDownloads desk.screen.model.downloads).2
    results := fun number => (s.results number).notified
      (SearchResultModel.setResults ⟨s.desk.system.window.search.resultsOf number⟩
        (desk.system.window.search.resultsOf number)).2 }

/-- The selection changes, if that is what the action does. -/
def selected (s : Views) : Action → Views
  | .selectDownloads selection =>
    { s with downloads := selection.within s.desk.screen.model.downloads.length }
  | .selectResults index selection =>
    match s.desk.system.window.search.tabs[index]? with
    | none => s
    | some tab =>
      { s with
        results := Function.update s.results tab.number (selection.within tab.results.length) }
  | _ => s

def step [Qt] (s : Views) (act : Action) : Views :=
  let desk := s.after act
  let events := desk.system.session.trace.drop s.desk.system.session.trace.length
  { (s.notified desk).selected act with
    history := s.history ++ .picks (s.picks act) :: events.map .works }

end Views

/-! ## What the window is about to ask for -/

namespace System

/-- The targets of the commands that wait. -/
def commanded (s : System) : Set Target := {t | ∃ c ∈ s.commands, c.slot.target = some t}

theorem commanded_enqueue (s : System) (command : Command) :
    (s.enqueue command).commanded ⊆ s.commanded ∪ {t | command.slot.target = some t} := by
  rintro t ⟨c, hc, ht⟩
  rcases List.mem_append.mp hc with hc | hc
  · exact .inl ⟨c, hc, ht⟩
  · exact .inr (List.mem_singleton.mp hc ▸ ht)

theorem commanded_enqueue_untargeted (s : System) {command : Command}
    (h : command.slot.target = none) : (s.enqueue command).commanded ⊆ s.commanded := by
  rintro t ht
  refine (s.commanded_enqueue command ht).elim id fun htarget => ?_
  exact absurd (h.symm.trans htarget) (by simp)

variable [Qt]

/-- A step asks about the targets of commands that wait, and adds none. -/
theorem step_commanded (s : System) {act : Action} (h : act.Untargeted) : ∃ events,
    (s.step act).session.trace = s.session.trace ++ events ∧
    (∀ ev ∈ events, ∀ t ∈ ev.targets, t ∈ s.commanded) ∧
    (s.step act).commanded ⊆ s.commanded := by
  have hquiet {s' : System} (hsession : s'.session = s.session)
      (hcommanded : s'.commanded ⊆ s.commanded) : ∃ events,
      s'.session.trace = s.session.trace ++ events ∧
      (∀ ev ∈ events, ∀ t ∈ ev.targets, t ∈ s.commanded) ∧ s'.commanded ⊆ s.commanded :=
    ⟨[], by rw [hsession, List.append_nil], List.forall_mem_nil _, hcommanded⟩
  have hidle := hquiet rfl (Set.Subset.refl s.commanded)
  cases act with
  | commanded slot hroutine => exact hquiet rfl (commanded_enqueue_untargeted s h)
  | run network =>
    rw [step]
    split
    · exact hidle
    · next c commands hcommands =>
      obtain ⟨events, htrace, hcourse⟩ := s.session.step_course ⟨c.slot, network⟩
      refine ⟨events, htrace, fun ev hev t ht => ?_, ?_⟩
      · exact ⟨c, hcommands ▸ List.mem_cons_self, hcourse.names_target ev hev t ht⟩
      · rintro t ⟨c', hc', ht⟩
        exact ⟨c', hcommands ▸ List.mem_cons_of_mem c hc', ht⟩
  | timerFired network =>
    obtain ⟨events, htrace, hcourse⟩ := s.session.step_course ⟨.timeout, network⟩
    refine ⟨events, htrace, fun ev hev t ht => ?_, Set.Subset.refl _⟩
    exact absurd (hcourse.names_target ev hev t ht) (by simp [Slot.target])
  | delivered =>
    rw [step]
    split
    · exact hidle
    · exact hquiet rfl (Set.Subset.refl _)
  | edited panel =>
    rw [step]
    split
    · exact hquiet rfl (Set.Subset.refl _)
    · exact hidle
  | searchClicked query kind fileType =>
    rw [step]
    split
    · exact hidle
    · exact hquiet rfl (commanded_enqueue_untargeted { s with window := _ } rfl)
  | tabClosed index =>
    rw [step]
    split
    · exact hquiet rfl (commanded_enqueue_untargeted { s with window := _ } rfl)
    · exact hquiet rfl (Set.Subset.refl _)
  | connectClicked host port password =>
    rw [step]
    split
    · exact hidle
    · exact hquiet rfl (commanded_enqueue_untargeted s rfl)
  | disconnectClicked | applyClicked | reloadClicked =>
    rw [step]
    split
    · exact hquiet rfl (commanded_enqueue_untargeted s rfl)
    · exact hidle

end System

namespace Desk

/-- The targets of the commands that wait and of the menu that is open. -/
def pending (s : Desk) : Set Target :=
  s.system.commanded ∪ {t | ∃ menu, s.menu = some menu ∧ t ∈ menu.targets}

/-- Requests are about what is pending in `s`; in `s'` no more is pending than this and
    `targets`. -/
def Asks (s s' : Desk) (targets : List Target) : Prop :=
  ∃ events, s'.system.session.trace = s.system.session.trace ++ events ∧
    (∀ ev ∈ events, ∀ t ∈ ev.targets, t ∈ s.pending) ∧ s'.pending ⊆ s.pending ∪ {t | t ∈ targets}

variable {s s' : Desk} {targets : List Target}

/-- Only commands are given, and a menu opened or closed. -/
structure Commands (s s' : Desk) (targets : List Target) : Prop where
  session : s'.system.session = s.system.session
  window : s'.system.window = s.system.window
  pending : s'.pending ⊆ s.pending ∪ {t | t ∈ targets}

theorem Commands.asks (h : s.Commands s' targets) : s.Asks s' targets :=
  ⟨[], by rw [h.session, List.append_nil], List.forall_mem_nil _, h.pending⟩

theorem Commands.idle (s : Desk) (targets : List Target) : s.Commands s targets :=
  ⟨rfl, rfl, Set.subset_union_left⟩

/-- Commands are about what they are given. -/
theorem Commands.enqueue (h : s.Commands s' targets) {slots : List Slot}
    (hslots : ∀ slot ∈ slots, ∀ t, slot.target = some t → t ∈ s.pending ∪ {t | t ∈ targets}) :
    s.Commands (s'.enqueue slots) targets := by
  induction slots generalizing s' with
  | nil => exact h
  | cons slot slots ih =>
    obtain ⟨hslot, hslots⟩ := List.forall_mem_cons.mp hslots
    rw [enqueue_cons]
    refine ih ⟨h.session, h.window, ?_⟩ hslots
    rintro t (ht | hmenu)
    · exact (s'.system.commanded_enqueue _ ht).elim (fun ht => h.pending (.inl ht)) (hslot t)
    · exact h.pending (.inr hmenu)

/-- A menu is opened, or the one that is open is closed. -/
theorem Commands.opens {menu : Option Menu} (h : ∀ m ∈ menu, ∀ t ∈ m.targets, t ∈ targets) :
    s.Commands { s with menu } targets := by
  refine ⟨rfl, rfl, ?_⟩
  rintro t (ht | ⟨m, hm, ht⟩)
  · exact .inl (.inl ht)
  · exact .inr (h m hm t ht)

/-- Something is chosen from the menu. -/
theorem Commands.chosen {menu : Menu} (hmenu : s.menu = some menu) {slots : List Slot}
    (hslots : ∀ slot ∈ slots, ∀ t, slot.target = some t → t ∈ menu.targets) :
    s.Commands (Desk.enqueue { s with menu := none } slots) targets := by
  have hclosed : s.Commands { s with menu := none } targets := .opens (by simp)
  refine hclosed.enqueue fun slot hslot t ht => ?_
  exact .inl (.inr ⟨menu, hmenu, hslots slot hslot t ht⟩)

theorem menu_foldl_receive (s : Desk) (messages : List Message) :
    (messages.foldl receive s).menu = s.menu := by
  have hreceive (s : Desk) (m : Message) : (s.receive m).menu = s.menu := by
    rw [receive]
    split <;> rfl
  induction messages generalizing s with
  | nil => rfl
  | cons m messages ih => rw [List.foldl_cons, ih, hreceive]

theorem mem_downloadsAt_iff {rows : List ℕ} {t : Target} : t ∈ s.downloadsAt rows ↔
    ∃ row ∈ rows, ∃ hash, s.screen.model.downloads[row]?.map (·.hash) = some hash ∧
      t = .download hash := by
  simp only [downloadsAt, List.mem_filterMap, Option.map_eq_some_iff]
  grind

theorem mem_resultsAt_iff {index : ℕ} {tab : SearchTab} {rows : List ℕ} {t : Target}
    (htab : s.system.window.search.tabs[index]? = some tab) : t ∈ s.resultsAt index rows ↔
    ∃ row ∈ rows, ∃ hash, tab.results[row]?.map (·.hash) = some hash ∧ t = .result hash := by
  simp only [resultsAt, htab, List.mem_filterMap, Option.map_eq_some_iff]
  grind

theorem mem_downloadsAt {rows : List ℕ} {row : ℕ} (hrow : row ∈ rows)
    (h : row < s.screen.model.downloads.length) :
    .download (s.screen.model.hashAt row) ∈ s.downloadsAt rows := by
  refine mem_downloadsAt_iff.mpr ⟨row, hrow, _, ?_, rfl⟩
  rw [DownloadTableModel.hashAt, List.getElem?_eq_getElem h]
  rfl

theorem mem_resultsAt {index row : ℕ} {rows : List ℕ} {tab : SearchTab} {r : SearchResult}
    (htab : s.system.window.search.tabs[index]? = some tab) (hrow : row ∈ rows)
    (hr : tab.results[row]? = some r) : .result r.hash ∈ s.resultsAt index rows :=
  (mem_resultsAt_iff htab).mpr ⟨row, hrow, r.hash, congrArg _ hr, rfl⟩

theorem commands_step [Qt] (s : Desk) {act : Action} (h : ∀ act' h', act ≠ .system act' h') :
    s.Commands (s.step act) (s.asked act) := by
  cases act with
  | system act' h' => exact absurd rfl (h act' h')
  | clearClicked =>
    rw [step]
    split
    · have hscreen : s.Commands { s with screen := s.screen.step .clearCompleted }
          (s.asked .clearClicked) := ⟨rfl, rfl, Set.subset_union_left⟩
      exact hscreen.enqueue (by simp [Slot.target])
    · exact .idle s _
  | downloadMenu selected clicked =>
    rw [step, onTableContextMenu]
    split
    · next hrows =>
      simp only [Bool.and_eq_true, decide_eq_true_eq, List.all_eq_true] at hrows
      refine .opens fun menu hmenu t ht => ?_
      obtain rfl := Option.some.inj hmenu
      obtain ⟨hash, hhash, rfl⟩ := List.mem_map.mp ht
      obtain ⟨row, hrow, rfl⟩ := List.mem_map.mp hhash
      refine mem_downloadsAt hrow ?_
      split at hrow
      · exact List.mem_singleton.mp hrow ▸ hrows.1
      · exact hrows.2 row hrow
    · exact .idle s _
  | serverMenu row =>
    rw [step, onServerContextMenu]
    split
    · next hrow =>
      refine .opens fun menu hmenu t ht => ?_
      obtain rfl := Option.some.inj hmenu
      obtain rfl := List.mem_singleton.mp ht
      rw [asked, serverAt, ServerTableModel.ipAt, ServerTableModel.portAt,
        List.getElem?_eq_getElem hrow]
      exact List.mem_cons_self
    · exact .idle s _
  | resultMenu index row =>
    rw [step, onResultContextMenu]
    split
    · exact .idle s _
    · next htab =>
      split
      · exact .idle s _
      · next hclicked =>
        refine .opens fun menu hmenu t ht => ?_
        obtain rfl := Option.some.inj hmenu
        obtain rfl := List.mem_singleton.mp ht
        exact mem_resultsAt htab List.mem_cons_self hclicked
  | dismissed => exact .opens (by simp)
  | downloadChosen entry =>
    rw [step]
    split
    · next hashes hmenu =>
      have hsent : s.Commands (Desk.enqueue { s with menu := none } (hashes.map entry.slot))
          (s.asked (.downloadChosen entry)) := by
        refine .chosen hmenu fun slot hslot t ht => ?_
        obtain ⟨hash, hhash, rfl⟩ := List.mem_map.mp hslot
        rw [target_slot] at ht
        exact Option.some.inj ht ▸ List.mem_map_of_mem hhash
      -- a deletion also changes what the window has retained
      cases entry <;> exact ⟨hsent.session, hsent.window, hsent.pending⟩
    · exact .idle s _
  | connectChosen | removeChosen =>
    rw [step]
    split
    · next hmenu => exact .chosen hmenu (by simp [Slot.target, Menu.targets])
    · exact .idle s _
  | resultChosen =>
    rw [step]
    split
    · next hmenu =>
      split
      · exact .chosen hmenu (by simp [Slot.target, Menu.targets])
      · exact .opens (by simp)
    · exact .idle s _
  | selectedResults index rows =>
    rw [step, onDownload]
    split
    · exact .idle s _
    · next tab htab =>
      split
      · refine (Commands.idle s _).enqueue fun slot hslot t ht => .inr ?_
        obtain ⟨hash, hhash, rfl⟩ := List.mem_map.mp hslot
        obtain rfl := Option.some.inj ht
        -- a row that is not there has the hash of no result
        obtain ⟨hrow, hne⟩ := List.mem_filter.mp hhash
        obtain ⟨row, hmem, rfl⟩ := List.mem_map.mp hrow
        cases hresult : tab.results[row]? with
        | none => simp [SearchResultModel.hashAt, hresult] at hne
        | some r =>
          rw [SearchResultModel.hashAt, hresult]
          exact mem_resultsAt htab hmem hresult
      · exact .idle s _

theorem asks_step [Qt] (s : Desk) (act : Action) : s.Asks (s.step act) (s.asked act) := by
  by_cases hact : ∃ act' h', act = .system act' h'
  · obtain ⟨act', h', rfl⟩ := hact
    obtain ⟨events, htrace, htargets, hcommanded⟩ := s.system.step_commanded h'
    have hsystem := system_foldl_receive { s with system := s.system.step act' }
      (s.system.takes act')
    have hmenu := menu_foldl_receive { s with system := s.system.step act' } (s.system.takes act')
    refine ⟨events, ?_, fun ev hev t ht => .inl (htargets ev hev t ht), ?_⟩
    · exact (congrArg (·.session.trace) hsystem).trans htrace
    · rintro t (ht | ⟨menu, hopen, ht⟩)
      · rw [step, hsystem] at ht
        exact .inl (.inl (hcommanded ht))
      · exact .inl (.inr ⟨menu, hmenu.symm.trans hopen, ht⟩)
  · exact (s.commands_step fun act' h' heq => hact ⟨act', h', heq⟩).asks

end Desk

/-! ## Tabs are known by their numbers -/

namespace SearchPanel

/-- No two tabs have one number. -/
structure Numbered (panel : SearchPanel) : Prop where
  distinct : (panel.tabs.map fun tab => tab.number).Nodup
  opened : ∀ tab ∈ panel.tabs, tab.number ≤ panel.opened

variable {panel panel' : SearchPanel}

theorem Numbered.resultsOf (h : panel.Numbered) {tab : SearchTab} (htab : tab ∈ panel.tabs) :
    panel.resultsOf tab.number = tab.results := by
  have hfound : (panel.tabs.find? fun tab' => tab'.number = tab.number).isSome :=
    List.find?_isSome.mpr ⟨tab, htab, decide_eq_true rfl⟩
  obtain ⟨tab', hfind⟩ := Option.isSome_iff_exists.mp hfound
  have hnumber : tab'.number = tab.number := by simpa using List.find?_some hfind
  have hsame : tab' = tab :=
    List.inj_on_of_nodup_map h.distinct (List.mem_of_find?_eq_some hfind) htab hnumber
  rw [SearchPanel.resultsOf, hfind, hsame]
  rfl

theorem Numbered.setResults (h : panel.Numbered) (results : List SearchResult) (source : ℕ) :
    (panel.setResults results source).Numbered := by
  rw [SearchPanel.setResults]
  split
  · exact h
  · next live _ =>
    have hnumbers : ∀ tab : SearchTab, (if tab.number = live then
        { tab with
          results
          source := some source
          text := ((QString.lit "%1 (%2)").arg tab.baseLabel).arg (.number results.length) }
        else tab).number = tab.number := fun tab => by split <;> rfl
    refine ⟨?_, ?_⟩
    · rw [List.map_map]
      simp only [Function.comp_def, hnumbers]
      exact h.distinct
    · intro tab' htab'
      obtain ⟨tab, htab, rfl⟩ := List.mem_map.mp htab'
      rw [hnumbers]
      exact h.opened tab htab

theorem Numbered.onSearch (h : panel.Numbered) {query fileType : QString} {kind : SearchKind}
    {params : Option SearchParams}
    (hsearch : panel.onSearch query kind fileType = (panel', params)) : panel'.Numbered := by
  rw [SearchPanel.onSearch] at hsearch
  split at hsearch
  · exact (Prod.mk.inj hsearch).1 ▸ h
  · obtain ⟨rfl, -⟩ := Prod.mk.inj hsearch
    refine ⟨?_, ?_⟩
    · rw [makeResultTab, List.map_append]
      refine List.nodup_append.mpr ⟨h.distinct, List.nodup_singleton _, ?_⟩
      intro number hold number' hnew heq
      obtain ⟨tab, htab, rfl⟩ := List.mem_map.mp hold
      have hle := h.opened tab htab
      have hnumber : number' = panel.opened + 1 := List.mem_singleton.mp hnew
      omega
    · refine List.forall_mem_append.mpr ⟨fun tab htab => ?_, List.forall_mem_singleton.mpr ?_⟩
      · exact Nat.le_succ_of_le (h.opened tab htab)
      · exact Nat.le_refl _

theorem Numbered.onTabClose (h : panel.Numbered) {index : ℕ} {stops : Bool}
    (hclose : panel.onTabClose index = (panel', stops)) : panel'.Numbered := by
  have hpanel : panel'.tabs = panel.tabs.eraseIdx index ∧ panel'.opened = panel.opened := by
    rw [SearchPanel.onTabClose] at hclose
    split at hclose <;> obtain ⟨rfl, -⟩ := Prod.mk.inj hclose <;> exact ⟨rfl, rfl⟩
  have hsublist : panel'.tabs.Sublist panel.tabs := hpanel.1 ▸ List.eraseIdx_sublist ..
  exact ⟨h.distinct.sublist (hsublist.map _),
    fun tab htab => hpanel.2 ▸ h.opened tab (hsublist.subset htab)⟩

end SearchPanel

theorem System.numbered_step [Qt] {s : System} (h : s.window.search.Numbered) (act : Action) :
    (s.step act).window.search.Numbered := by
  have hsteps := s.steps act
  generalize s.step act = s' at hsteps
  cases hsteps with
  | searched hsearch => exact h.onSearch hsearch
  | @closed index search stops hclose s' hs' =>
    subst hs'
    cases stops <;> exact h.onTabClose hclose
  | @delivered m signals hsignals =>
    show (s.window.receive m).search.Numbered
    rw [Window.receive]
    split
    · exact h
    · exact h
    · exact h.setResults _ _
    · exact h
  | _ => exact h

namespace Desk

theorem numbered_step [Qt] {s : Desk} (h : s.system.window.search.Numbered) (act : Action) :
    (s.step act).system.window.search.Numbered := by
  by_cases hact : ∃ act' h', act = .system act' h'
  · obtain ⟨act', h', rfl⟩ := hact
    have hsystem := system_foldl_receive { s with system := s.system.step act' }
      (s.system.takes act')
    rw [step, hsystem]
    exact System.numbered_step h act'
  · rw [(s.commands_step fun act' h' heq => hact ⟨act', h', heq⟩).window]
    exact h

end Desk

/-! ## Selections -/

namespace ViewSelection

variable {α κ : Type}

/-- The keys of the selected rows. -/
def keys (sel : ViewSelection) (key : α → κ) (rows : List α) : Set κ :=
  {k | ∃ row ∈ sel.rows, rows[row]?.map key = some k}

/-- A selection that outlives a change of the model has the keys that it had. -/
theorem keys_notified [DecidableEq κ] (sel : ViewSelection) {key : α → κ} {rows old : List α}
    {signal : ModelSignal} (h : signal = .dataChanged → sameKeys key rows old = true) :
    (sel.notified signal).keys key rows ⊆ sel.keys key old := by
  rintro k ⟨row, hrow, hk⟩
  cases signal with
  | dataChanged => exact ⟨row, hrow, (getElem?_of_sameKeys (h rfl) row).symm.trans hk⟩
  | modelReset => exact absurd hrow (Finset.notMem_empty row)

theorem keys_within (sel : ViewSelection) (count : ℕ) (key : α → κ) (rows : List α) :
    (sel.within count).keys key rows ⊆ sel.keys key rows := by
  rintro k ⟨row, hrow, hk⟩
  exact ⟨row, (Finset.mem_filter.mp hrow).1, hk⟩

end ViewSelection

theorem DownloadTableModel.sameKeys_of_dataChanged {t : DownloadTableModel}
    {downloads : List Download} (h : (t.setDownloads downloads).2 = .dataChanged) :
    sameKeys (·.hash) downloads t.downloads = true := by
  rw [setDownloads] at h
  split at h
  · next hplace => exact (Bool.and_eq_true_iff.mp hplace).1
  · cases h

theorem SearchResultModel.sameKeys_of_dataChanged {m : SearchResultModel}
    {results : List SearchResult} (h : (m.setResults results).2 = .dataChanged) :
    sameKeys (·.hash) results m.results = true := by
  rw [setResults] at h
  split at h
  · next hplace => exact (Bool.and_eq_true_iff.mp hplace).1
  · cases h

namespace Views

/-- The targets in the selected rows. -/
def held (s : Views) : Set Target :=
  {t | ∃ hash ∈ s.downloads.keys (·.hash) s.desk.screen.model.downloads, t = .download hash} ∪
  {t | ∃ number, ∃ hash ∈ (s.results number).keys (·.hash)
    (s.desk.system.window.search.resultsOf number), t = .result hash}

/-- No selection comes to be about anything else when the models change. -/
theorem held_notified (s : Views) (desk : Desk) : (s.notified desk).held ⊆ s.held := by
  rintro t (⟨hash, hhash, rfl⟩ | ⟨number, hash, hhash, rfl⟩)
  · exact .inl ⟨hash, s.downloads.keys_notified
      DownloadTableModel.sameKeys_of_dataChanged hhash, rfl⟩
  · exact .inr ⟨number, hash, (s.results number).keys_notified
      SearchResultModel.sameKeys_of_dataChanged hhash, rfl⟩

theorem desk_selected (s : Views) (act : Action) : (s.selected act).desk = s.desk := by
  cases act with
  | selectResults index selection =>
    rw [selected]
    split
    · rfl
    · rfl
  | _ => rfl

/-- What comes to be selected has been picked. -/
theorem held_selected {s : Views} (h : s.desk.system.window.search.Numbered) (act : Action) :
    (s.selected act).held ⊆ s.held ∪ {t | t ∈ s.picks act} := by
  cases act with
  | selectDownloads selection =>
    rintro t (⟨hash, hhash, rfl⟩ | hresult)
    · obtain ⟨row, hrow, hkey⟩ := selection.keys_within _ _ _ hhash
      exact .inr (Desk.mem_downloadsAt_iff.mpr
        ⟨row, (Finset.mem_sort _).mpr hrow, hash, hkey, rfl⟩)
    · exact .inl (.inr hresult)
  | selectResults index selection =>
    rw [selected]
    split
    · exact Set.subset_union_left
    · next tab htab =>
      rintro t (hdownload | ⟨number, hash, hhash, rfl⟩)
      · exact .inl (.inl hdownload)
      · dsimp only at hhash
        by_cases hnumber : number = tab.number
        · subst hnumber
          rw [Function.update_self, h.resultsOf (List.mem_of_getElem? htab)] at hhash
          obtain ⟨row, hrow, hkey⟩ := selection.keys_within _ _ _ hhash
          exact .inr ((Desk.mem_resultsAt_iff htab).mpr
            ⟨row, (Finset.mem_sort _).mpr hrow, hash, hkey, rfl⟩)
        · rw [Function.update_of_ne hnumber] at hhash
          exact .inl (.inr ⟨number, hash, hhash, rfl⟩)
  | downloadMenu | download | other => exact Set.subset_union_left

/-- What the window is asked for is selected, or picked now. -/
theorem asked_deskAction {s : Views} (h : s.desk.system.window.search.Numbered) {act : Action}
    {act' : Desk.Action} (hact : s.deskAction act = some act') :
    {t | t ∈ s.desk.asked act'} ⊆ s.held ∪ {t | t ∈ s.picks act} := by
  intro t ht
  cases act with
  | selectDownloads | selectResults => cases hact
  | downloadMenu rows clicked =>
    rw [deskAction, Option.ite_none_right_eq_some] at hact
    obtain ⟨hrows, hact⟩ := hact
    cases hact
    obtain ⟨row, hrow, hash, hkey, rfl⟩ := Desk.mem_downloadsAt_iff.mp ht
    split at hrow
    · exact .inr (Desk.mem_downloadsAt_iff.mpr ⟨row, hrow, hash, hkey, rfl⟩)
    · exact .inl (.inl ⟨hash, ⟨row, hrows ▸ List.mem_toFinset.mpr hrow, hkey⟩, rfl⟩)
  | download index rows =>
    rw [deskAction] at hact
    split at hact
    · cases hact
    · next tab htab =>
      obtain ⟨hrows, hact⟩ := Option.ite_none_right_eq_some.mp hact
      cases hact
      obtain ⟨row, hrow, hash, hkey, rfl⟩ := (Desk.mem_resultsAt_iff htab).mp ht
      rw [← h.resultsOf (List.mem_of_getElem? htab)] at hkey
      exact .inl (.inr ⟨tab.number, hash, ⟨row, hrows ▸ List.mem_toFinset.mpr hrow, hkey⟩, rfl⟩)
  | other act' h' =>
    cases hact
    exact .inr ht

/-! ## The run -/

/-- Targets come in with the user's picks. -/
def vocabulary : Provenance.Vocabulary Views Deed Target where
  trace s := s.history
  mentions s := s.desk.pending ∪ s.held
  brings deed := {t | t ∈ deed.picked}
  uses deed := {t | t ∈ deed.targets}

/-- The invariant of the run. -/
structure Picked (s : Views) : Prop where
  numbered : s.desk.system.window.search.Numbered
  borrowed : vocabulary.Borrowed s
  recorded : s.history.filterMap Deed.event = s.desk.system.session.trace

variable [Qt]

theorem asks_after {s : Views} (h : s.desk.system.window.search.Numbered) (act : Action) :
    ∃ targets, s.desk.Asks (s.after act) targets ∧
      {t | t ∈ targets} ⊆ s.held ∪ {t | t ∈ s.picks act} := by
  rw [after]
  split
  · exact ⟨[], (Desk.Commands.idle s.desk []).asks, fun t ht => absurd ht List.not_mem_nil⟩
  · next act' hact => exact ⟨_, s.desk.asks_step act', asked_deskAction h hact⟩

theorem numbered_after {s : Views} (h : s.desk.system.window.search.Numbered) (act : Action) :
    (s.after act).system.window.search.Numbered := by
  rw [after]
  split
  · exact h
  · exact Desk.numbered_step h _

theorem desk_step (s : Views) (act : Action) : (s.step act).desk = s.after act :=
  desk_selected _ act

theorem history_step (s : Views) (act : Action) : (s.step act).history = s.history ++
    .picks (s.picks act) :: ((s.after act).system.session.trace.drop
      s.desk.system.session.trace.length).map .works := rfl

/-- Where the selection changes, nothing else does. -/
theorem held_step {s : Views} (h : s.desk.system.window.search.Numbered) (act : Action) :
    (s.step act).held ⊆ s.held ∪ {t | t ∈ s.picks act} := by
  have hnotified (desk : Desk) : (s.notified desk).held ⊆ s.held ∪ {t | t ∈ s.picks act} :=
    (s.held_notified desk).trans Set.subset_union_left
  cases act with
  | selectDownloads selection =>
    exact (held_selected (s := s.notified s.desk) h (.selectDownloads selection)).trans
      (Set.union_subset_union_left _ (s.held_notified s.desk))
  | selectResults index selection =>
    exact (held_selected (s := s.notified s.desk) h (.selectResults index selection)).trans
      (Set.union_subset_union_left _ (s.held_notified s.desk))
  | downloadMenu | download | other => exact hnotified _

theorem Picked.step {s : Views} (h : s.Picked) (act : Action) : (s.step act).Picked := by
  obtain ⟨targets, ⟨events, htrace, huses, hpending⟩, htargets⟩ := asks_after h.numbered act
  have hdrop : (s.after act).system.session.trace.drop s.desk.system.session.trace.length =
      events := by
    rw [htrace, List.drop_left]
  have hhistory : (s.step act).history =
      s.history ++ .picks (s.picks act) :: events.map .works := by
    rw [← hdrop]
    exact history_step s act
  have hpicks : {t | t ∈ s.picks act} ⊆
      vocabulary.brought (.picks (s.picks act) :: events.map .works) :=
    fun t ht => ⟨_, List.mem_cons_self, ht⟩
  have hdesk := s.desk_step act
  refine ⟨hdesk ▸ numbered_after h.numbered act, h.borrowed.step ⟨_, hhistory, ?_, ?_⟩, ?_⟩
  · rintro deed hdeed t ht
    rcases List.mem_cons.mp hdeed with rfl | hdeed
    · exact absurd ht List.not_mem_nil
    · obtain ⟨ev, hev, rfl⟩ := List.mem_map.mp hdeed
      exact .inl (huses ev hev t ht)
  · -- what is picked now, what was asked of the desk, and what is still selected
    have hbrought : s.held ∪ {t | t ∈ s.picks act} ⊆ vocabulary.mentions s ∪
        vocabulary.brought (.picks (s.picks act) :: events.map .works) :=
      Set.union_subset_union Set.subset_union_right hpicks
    refine Set.union_subset ?_ ((held_step h.numbered act).trans hbrought)
    rw [hdesk]
    refine hpending.trans (Set.union_subset ?_ (htargets.trans hbrought))
    exact Set.subset_union_left.trans Set.subset_union_left
  · rw [hhistory, List.filterMap_append, h.recorded, hdesk, htrace]
    have hevents : (events.map Deed.works).filterMap Deed.event = events :=
      List.filterMap_map.trans List.filterMap_some
    exact congrArg (s.desk.system.session.trace ++ ·) hevents

/-- Whatever becomes of the tables in between, a request is about nothing but what the user has
    picked. -/
theorem targets_picked (acts : List Action) :
    Trace.Throughout (fun before deed => deed.targets ⊆ before.flatMap Deed.picked)
      (acts.foldl step {}).history ∧
    (acts.foldl step {}).history.filterMap Deed.event =
      (acts.foldl step {}).desk.system.session.trace := by
  have hborrowed : vocabulary.Borrowed {} := by
    refine ⟨?_, Trace.throughout_nil⟩
    rintro t ((⟨c, hc, -⟩ | ⟨menu, hmenu, -⟩) | ⟨_, hselected, -⟩ | ⟨_, _, hselected, -⟩)
    · exact absurd hc List.not_mem_nil
    · cases hmenu
    · obtain ⟨row, hrow, -⟩ := hselected
      exact absurd hrow (Finset.notMem_empty row)
    · obtain ⟨row, hrow, -⟩ := hselected
      exact absurd hrow (Finset.notMem_empty row)
  have hstart : Picked {} := ⟨⟨List.nodup_nil, List.forall_mem_nil _⟩, hborrowed, rfl⟩
  have hrun : (acts.foldl Views.step {}).Picked :=
    List.foldlRecOn acts Views.step hstart fun s hs act _ => hs.step act
  refine ⟨?_, hrun.recorded⟩
  intro before deed after heq t ht
  exact List.mem_flatMap.mpr (hrun.borrowed.uses before deed after heq ht)

end Views

end Amule
