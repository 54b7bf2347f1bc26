import AmuleRemote.Ec.Queries
import AmuleRemote.Lib.LiveRecords

/-!
# Sources as a function of the replies

The source map is merged in place from the client containers of the update
replies, entry by entry and field by field. Here the same map is read off the
replies that were received: the ids are those of the last container, and the
record of an id is made of its entries in the last containers that all list it.
-/

namespace Amule

open Ec LiveRecords

/-- The first client container of a reply. -/
def clientContainer (resp : Packet) : Option Tag := resp.tags.find? (·.name = TagName.client)

/-- The entries of a container that have an id, under that id. -/
def reportOf (container : Tag) : List (UInt32 × Tag) :=
  container.children.filterMap fun entry => entry.asInt.map fun v => (v.toUInt32, entry)

/-- What the replies with a container report. -/
def reportsOf (replies : List Packet) : List (List (UInt32 × Tag)) :=
  (replies.filterMap clientContainer).map reportOf

/-- What the last of the entries that say anything says. -/
def lastOf {α : Type} (read : Tag → Option α) (entries : List Tag) (default : α) : α :=
  (entries.filterMap read).getLast?.getD default

/-- A speed is a double or an integer. -/
def childSpeed (entry : Tag) (name : UInt16) : Option Double :=
  (entry.child name).bind fun t =>
    match t.value with
    | .double d => some d
    | .int v => some (Double.ofUInt64 v)
    | _ => none

/-- The record of the source `id` with these entries. A sub-tag counts if it is the entry's
    first of that name and well typed. -/
def sourceOf (id : UInt32) (entries : List Tag) : SourceClient where
  id := id
  fileEcid := lastOf (fun e => (e.childInt TagName.clientRequestFile).map (·.toUInt32)) entries 0
  name := lastOf (·.childString TagName.clientName) entries []
  softVer := lastOf (·.childString TagName.clientSoftVerStr) entries []
  userIp := lastOf (fun e => (e.childInt TagName.clientUserIp).map (·.toUInt32)) entries 0
  userPort := lastOf (fun e => (e.childInt TagName.clientUserPort).map (·.toUInt16)) entries 0
  downSpeed := lastOf (childSpeed · TagName.clientDownSpeed) entries {}
  downloaded := lastOf (·.childInt TagName.clientDownloadTotal) entries 0
  downState := lastOf (·.childInt TagName.clientDownloadState) entries 0
  origin := lastOf (·.childInt TagName.clientFrom) entries 0
  availParts := lastOf (·.childInt TagName.clientAvailableParts) entries 0
  remoteName := lastOf (·.childString TagName.clientRemoteFilename) entries []

attribute [ext] SourceClient

/-- Merging an entry of the source `id`. -/
def mergeAs (id : UInt32) (c : SourceClient) (entry : Tag) : SourceClient :=
  mergeClient { c with id := id } entry

theorem mergeAs_downSpeed (id : UInt32) (c : SourceClient) (entry : Tag) :
    (mergeAs id c entry).downSpeed =
      (childSpeed entry TagName.clientDownSpeed).getD c.downSpeed := by
  simp only [mergeAs, mergeClient, childSpeed]
  cases entry.child TagName.clientDownSpeed with
  | none => rfl
  | some t => cases h : t.value <;> simp [h]

/-- Merged from scratch, entry by entry, a record is what its entries say last. -/
theorem foldl_mergeAs (id : UInt32) {entries : List Tag} (h : entries ≠ []) :
    entries.foldl (mergeAs id) {} = sourceOf id entries := by
  ext1
  · -- every entry sets the id
    rw [foldl_field SourceClient.id (fun _ => some id) fun _ _ => rfl]
    obtain ⟨entries, entry, rfl⟩ := (List.eq_nil_or_concat entries).resolve_left h
    simp [sourceOf]
  · exact foldl_field SourceClient.fileEcid _ (fun _ _ => rfl) _ _
  · exact foldl_field SourceClient.name _ (fun _ _ => rfl) _ _
  · exact foldl_field SourceClient.softVer _ (fun _ _ => rfl) _ _
  · exact foldl_field SourceClient.userIp _ (fun _ _ => rfl) _ _
  · exact foldl_field SourceClient.userPort _ (fun _ _ => rfl) _ _
  · exact foldl_field SourceClient.downSpeed _ (mergeAs_downSpeed id) _ _
  · exact foldl_field SourceClient.downloaded _ (fun _ _ => rfl) _ _
  · exact foldl_field SourceClient.downState _ (fun _ _ => rfl) _ _
  · exact foldl_field SourceClient.origin _ (fun _ _ => rfl) _ _
  · exact foldl_field SourceClient.availParts _ (fun _ _ => rfl) _ _
  · exact foldl_field SourceClient.remoteName _ (fun _ _ => rfl) _ _

/-! ## One reply -/

theorem lookup_addClient (clients : SourceMap) (entry : Tag) (id : UInt32) :
    (addClient clients entry).lookup id =
      if entry.asInt.map (·.toUInt32) = some id then
        some (mergeAs id ((clients.lookup id).getD {}) entry)
      else clients.lookup id := by
  unfold addClient
  cases entry.asInt with
  | none => rfl
  | some v =>
    by_cases hid : v.toUInt32 = id
    · subst hid
      simp only [Option.map_some, if_true, AList.lookup_insert]
      rfl
    · have hne : ¬Option.map (·.toUInt32) (some v) = some id := fun h => hid (Option.some.inj h)
      rw [if_neg hne]
      exact AList.lookup_insert_ne (Ne.symm hid)

theorem lookup_foldl_addClient (children : List Tag) (clients : SourceMap) (id : UInt32) :
    let entries := children.filter fun entry => entry.asInt.map (·.toUInt32) = some id
    (children.foldl addClient clients).lookup id =
      if entries = [] then clients.lookup id
      else some (entries.foldl (mergeAs id) ((clients.lookup id).getD {})) := by
  induction children generalizing clients with
  | nil => rfl
  | cons entry children ih =>
    simp only at ih ⊢
    rw [List.foldl_cons, ih, lookup_addClient]
    by_cases hid : entry.asInt.map (·.toUInt32) = some id
    · rw [List.filter_cons_of_pos (by simpa using hid), if_pos hid,
        if_neg (List.cons_ne_nil entry _), List.foldl_cons, Option.getD_some]
      by_cases hnone : children.filter (fun e => e.asInt.map (·.toUInt32) = some id) = []
      · rw [if_pos hnone, hnone, List.foldl_nil]
      · rw [if_neg hnone]
    · rw [List.filter_cons_of_neg (by simpa using hid), if_neg hid]

theorem lookup_keepAlive (clients : SourceMap) (alive : List UInt32) (id : UInt32) :
    (keepAlive clients alive).lookup id = if id ∈ alive then clients.lookup id else none := by
  by_cases hid : id ∈ alive
  · rw [if_pos hid]
    apply Option.ext
    intro source
    rw [← Option.mem_def, ← Option.mem_def, AList.mem_lookup_iff, AList.mem_lookup_iff]
    exact List.mem_filter.trans (and_iff_left (decide_eq_true hid))
  · rw [if_neg hid, Option.eq_none_iff_forall_not_mem]
    intro source hsource
    have hmem := List.mem_filter.mp (AList.mem_lookup_iff.mp hsource)
    exact hid (of_decide_eq_true hmem.2)

theorem entriesOf_reportOf (container : Tag) (id : UInt32) :
    entriesOf id (reportOf container) =
      container.children.filter fun entry => entry.asInt.map (·.toUInt32) = some id := by
  rw [entriesOf, reportOf]
  induction container.children with
  | nil => rfl
  | cons entry children ih =>
    cases hint : entry.asInt with
    | none =>
      rw [List.filterMap_cons_none (by simp [hint]), ih, List.filter_cons_of_neg (by simp [hint])]
    | some v =>
      rw [List.filterMap_cons_some (b := (v.toUInt32, entry)) (by simp [hint])]
      by_cases hid : v.toUInt32 = id
      · rw [List.filterMap_cons_some (b := entry) (by simp [hid]), ih,
          List.filter_cons_of_pos (by simp [hint, hid])]
      · rw [List.filterMap_cons_none (by simp [hid]), ih,
          List.filter_cons_of_neg (by simp [hint, hid])]

theorem listed_reportOf (container : Tag) : listed (reportOf container) =
    container.children.filterMap fun entry => entry.asInt.map (·.toUInt32) := by
  rw [listed, reportOf, List.map_filterMap]
  refine List.filterMap_congr fun entry _ => ?_
  cases entry.asInt <;> rfl

theorem updateClients_of_none {resp : Packet} (h : clientContainer resp = none)
    (clients : SourceMap) : updateClients clients resp = clients := by
  unfold clientContainer at h
  rw [updateClients, h]

/-- A reply with a container changes the map as its report says. -/
theorem lookup_updateClients {resp : Packet} {container : Tag}
    (h : clientContainer resp = some container) (clients : SourceMap) (id : UInt32) :
    (updateClients clients resp).lookup id =
      applyReport mergeAs (fun _ => {}) (fun k => clients.lookup k) (reportOf container) id := by
  unfold clientContainer at h
  rw [updateClients, h]
  simp only [← listed_reportOf]
  rw [lookup_keepAlive, lookup_foldl_addClient, applyReport]
  by_cases hlisted : id ∈ listed (reportOf container)
  · have hentries := entriesOf_ne_nil hlisted
    rw [entriesOf_reportOf] at hentries
    rw [if_pos hlisted, if_pos hlisted, if_neg hentries, entriesOf_reportOf]
  · rw [if_neg hlisted, if_neg hlisted]

/-! ## All replies -/

theorem lookup_foldl_updateClients (replies : List Packet) (id : UInt32) :
    (replies.foldl updateClients ∅).lookup id =
      (reportsOf replies).foldl (applyReport mergeAs fun _ => {}) (fun _ => none) id := by
  induction replies using List.reverseRecOn generalizing id with
  | nil => rfl
  | append_singleton replies resp ih =>
    rw [List.foldl_concat, reportsOf, List.filterMap_append, List.map_append]
    cases h : clientContainer resp with
    | none =>
      have hnone : List.filterMap clientContainer [resp] = [] := by simp [h]
      rw [updateClients_of_none h, hnone, List.map_nil, List.append_nil, ih]
      rfl
    | some container =>
      have hone : List.filterMap clientContainer [resp] = [container] := by simp [h]
      rw [lookup_updateClients h, hone, List.map_singleton, List.foldl_concat]
      have hlive : (fun k => (replies.foldl updateClients ∅).lookup k) =
          (reportsOf replies).foldl (applyReport mergeAs fun _ => {}) fun _ => none := by
        funext k
        exact ih k
      rw [hlive]
      rfl

/-- The map after a sequence of update replies, read off the replies. -/
theorem foldl_updateClients (replies : List Packet) :
    let clients := replies.foldl updateClients ∅
    (∀ id, id ∈ clients ↔ ListedLast id (reportsOf replies)) ∧
      (∀ id source, clients.lookup id = some source →
        source = sourceOf id (liveEntries id (reportsOf replies))) ∧
      ∀ clients resp, clientContainer resp = none → updateClients clients resp = clients := by
  intro clients
  have hlookup := lookup_foldl_updateClients replies
  refine ⟨fun id => ?_, fun id source hsource => ?_, fun clients resp h =>
    updateClients_of_none h clients⟩
  · obtain ⟨hlisted, hgone⟩ := foldl_applyReport mergeAs (fun _ => {}) (reportsOf replies) id
    rw [← AList.lookup_isSome, hlookup]
    by_cases h : ListedLast id (reportsOf replies)
    · rw [hlisted h]
      exact iff_of_true rfl h
    · rw [hgone h]
      exact iff_of_false (by simp) h
  · obtain ⟨hlisted, hgone⟩ := foldl_applyReport mergeAs (fun _ => {}) (reportsOf replies) id
    rw [hlookup] at hsource
    by_cases h : ListedLast id (reportsOf replies)
    · rw [hlisted h] at hsource
      rw [← Option.some.inj hsource]
      exact foldl_mergeAs id (liveEntries_ne_nil h)
    · rw [hgone h] at hsource
      exact absurd hsource (by simp)

/-- One source, with two names in its entry. -/
def twoNames : Packet :=
  ⟨Op.noop, [⟨TagName.client, .empty, [⟨TagName.client, .int 1,
    [.string TagName.clientName (.lit "a"), .string TagName.clientName (.lit "b")]⟩]⟩]⟩

theorem foldl_updateClients_twoNames :
    1 ∈ [twoNames].foldl updateClients ∅ ∧
      ([twoNames].foldl updateClients ∅).lookup 1 =
        some (sourceOf 1 (liveEntries 1 (reportsOf [twoNames]))) := by
  obtain ⟨hkeys, hrecords, -⟩ := foldl_updateClients [twoNames]
  have hmem := (hkeys 1).mpr ⟨_, rfl, by decide⟩
  obtain ⟨source, hsource⟩ := Option.isSome_iff_exists.mp (AList.lookup_isSome.mpr hmem)
  exact ⟨hmem, hsource.trans (congrArg some (hrecords 1 source hsource))⟩

/-- The last well-typed sub-tag of a name, all sub-tags of the entries taken together. -/
def lastSubTag {α : Type} (read : Tag → Option α) (name : UInt16) (entries : List Tag) : Option α :=
  (((entries.flatMap (·.children)).filter (·.name = name)).filterMap read).getLast?

/-- The first of two names in an entry is taken, not the last. -/
theorem name_ne_lastSubTag :
    (([twoNames].foldl updateClients ∅).lookup 1).map (·.name) = some (.lit "a") ∧
      lastSubTag Tag.asString TagName.clientName (liveEntries 1 (reportsOf [twoNames])) =
        some (.lit "b") := by
  decide

end Amule
