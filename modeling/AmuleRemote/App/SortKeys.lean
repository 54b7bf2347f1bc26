import AmuleRemote.App.Anchoring
import AmuleRemote.App.Labels
import Mathlib.Data.List.Lex
import Mathlib.Data.Prod.Lex
import Mathlib.Data.Sum.Order

/-!
# Sort keys of the tables

The four tables with sortable columns. Each stands behind a proxy that sorts by the
role `Qt::UserRole`, for which the models give a key for the column of a row. A
model that has none for a column falls through to its last role check and gives an
invalid variant. Two of those are not less than each other, so a proxy that sorts by
such a column leaves the rows as they are.

How the proxy compares two variants is Qt's, and an argument here.
-/

namespace Amule

/-- `QVariant`, with the types that the tables put into one. -/
inductive QVariant
  | invalid
  | int (v : Int32)
  | uint (v : UInt32)
  | ulonglong (v : UInt64)
  | float (v : ℚ)
  | string (s : QString)
deriving DecidableEq

/-- `Qt::ItemDataRole`. The role `progress` is `DownloadTableModel::ProgressRole`, and `other`
    any other role. -/
inductive ItemDataRole
  | display
  | textAlignment
  | user
  | progress
  | other
deriving DecidableEq

/-- `Qt::AlignLeft | Qt::AlignVCenter` -/
def alignLeft : QVariant := .int 0x81

/-- `Qt::AlignRight | Qt::AlignVCenter` -/
def alignRight : QVariant := .int 0x82

/-- What a cell stands for, a number or a text. Texts are ordered by their code units. -/
abbrev CellValue := ℚ ⊕ₗ List ℕ

namespace CellValue

def number (v : ℚ) : CellValue := toLex (.inl v)

def text (s : QString) : CellValue := toLex (.inr (s.map (·.toNat)))

@[simp] theorem number_lt_number {v w : ℚ} : number v < number w ↔ v < w := Sum.Lex.inl_lt_inl_iff

@[simp] theorem text_lt_text {s t : QString} :
    text s < text t ↔ s.map (·.toNat) < t.map (·.toNat) := Sum.Lex.inr_lt_inr_iff

end CellValue

/-! ## Comparing keys -/

/-- What Qt says of `QSortFilterProxyModel::lessThan` for two keys of one type, with its default
    case sensitivity and no regard to the locale. -/
structure ComparesKeys (lessThan : QVariant → QVariant → Bool) : Prop where
  invalid : lessThan .invalid .invalid = false
  uint : ∀ v w, lessThan (.uint v) (.uint w) = decide (v < w)
  ulonglong : ∀ v w, lessThan (.ulonglong v) (.ulonglong w) = decide (v < w)
  float : ∀ v w, lessThan (.float v) (.float w) = decide (v < w)
  string : ∀ s t, lessThan (.string s) (.string t) = decide (s.map (·.toNat) < t.map (·.toNat))

namespace SortOrder

/-- In the order asked for, `v` comes before `w`. -/
def Before (order : SortOrder) (v w : CellValue) : Prop :=
  match order with
  | .ascending => v < w
  | .descending => v > w

instance decidableBefore (order : SortOrder) : DecidableRel order.Before :=
  match order with
  | .ascending => fun v w => inferInstanceAs (Decidable (v < w))
  | .descending => fun v w => inferInstanceAs (Decidable (v > w))

theorem goesBefore_iff_before {order : SortOrder} {lessThan : ℕ → ℕ → Bool} {f : ℕ → CellValue}
    {a b : ℕ} (hab : lessThan a b = true ↔ f a < f b) (hba : lessThan b a = true ↔ f b < f a) :
    order.goesBefore lessThan a b = true ↔ order.Before (f a) (f b) := by
  cases order with
  | ascending => exact hab
  | descending => exact hba

instance isStrictWeakOrder_before (order : SortOrder) (f : ℕ → CellValue) :
    IsStrictWeakOrder ℕ fun a b => order.Before (f a) (f b) := by
  cases order with
  | ascending => exact inferInstanceAs (IsStrictWeakOrder ℕ (Function.onFun (· < ·) f))
  | descending => exact inferInstanceAs (IsStrictWeakOrder ℕ (Function.onFun (· > ·) f))

theorem before_of_not_before {order : SortOrder} {v w : CellValue} (h : ¬order.Before w v)
    (hne : v ≠ w) : order.Before v w := by
  cases order with
  | ascending => exact lt_of_le_of_ne (not_lt.mp h) hne
  | descending => exact lt_of_le_of_ne (not_lt.mp h) hne.symm

end SortOrder

section

variable [QtText]

/-! ## The models -/

namespace DownloadTableModel

inductive Column
  | partNum
  | name
  | status
  | progress
  | size
  | speed
  | sources
deriving DecidableEq

def data (m : DownloadTableModel) (row : ℕ) (column : Column) (role : ItemDataRole) : QVariant :=
  match m.downloads[row]? with
  | none => .invalid
  | some d =>
    match role with
    | .progress => .int (.ofInt ⌊toFloat (d.progress * 100)⌋)
    | .user =>
      match column with
      | .partNum => .uint d.partMetId
      | .name => .string d.name
      | .status => .string d.statusLabel
      | .progress => .float d.progress
      | .size => .ulonglong d.sizeFull
      | .speed => .ulonglong d.speed
      | .sources => .ulonglong d.sourceCount
    | .textAlignment =>
      match column with
      | .partNum | .size | .speed | .sources => alignRight
      | _ => alignLeft
    | .display =>
      match column with
      | .partNum =>
        .string (if 0 < d.partMetId then .number d.partMetId.toNat else .lit "—")
      | .name => .string d.name
      | .status => .string d.statusLabel
      | .progress =>
        .string ((QString.lit "%1%").arg (QtText.fixed (toFloat (d.progress * 100)) 1))
      | .size => .string (humanSizePair d.sizeDone d.sizeFull)
      | .speed => .string (if 0 < d.speed then humanRate d.speed else .lit "—")
      | .sources =>
        .string (((QString.lit "%1 (%2)").arg (.number d.sourceCount.toNat)).arg
          (.number d.sourceCountXfer.toNat))
    | .other => .invalid

/-- The value of a download in a column. -/
def value (d : Download) : Column → CellValue
  | .partNum => .number d.partMetId.toNat
  | .name => .text d.name
  | .status => .text d.statusLabel
  | .progress => .number d.progress
  | .size => .number d.sizeFull.toNat
  | .speed => .number d.speed.toNat
  | .sources => .number d.sourceCount.toNat

end DownloadTableModel

namespace SearchResultModel

inductive Column
  | name
  | size
  | sources
deriving DecidableEq

def data (m : SearchResultModel) (row : ℕ) (column : Column) (role : ItemDataRole) : QVariant :=
  match m.results[row]? with
  | none => .invalid
  | some r =>
    match role with
    | .textAlignment => if column = .size ∨ column = .sources then alignRight else alignLeft
    | .user =>
      match column with
      | .name => .string r.name
      | .size => .ulonglong r.size
      | .sources => .ulonglong r.sourceCount
    | .display =>
      match column with
      | .name => .string r.name
      | .size => .string (humanBytes r.size)
      | .sources =>
        .string (((QString.lit "%1 (%2)").arg (.number r.sourceCount.toNat)).arg
          (.number r.completeSourceCount.toNat))
    | _ => .invalid

/-- The value of a result in a column. -/
def value (r : SearchResult) : Column → CellValue
  | .name => .text r.name
  | .size => .number r.size.toNat
  | .sources => .number r.sourceCount.toNat

end SearchResultModel

structure ServerTableModel where
  servers : List Server := []

namespace ServerTableModel

inductive Column
  | name
  | address
  | users
  | files
  | ping
  | priority
deriving DecidableEq

/-- The text of the name column: a server without a name is shown by its address. -/
def shownName (s : Server) : QString := if s.name.isEmpty then s.address else s.name

def shownAddress (s : Server) : QString :=
  ((QString.lit "%1:%2").arg s.address).arg (.number s.port.toNat)

/-- The keys the switch for `Qt::UserRole` returns; the other columns break out of it. -/
def sortKey (s : Server) : Column → Option QVariant
  | .users => some (.ulonglong s.users)
  | .files => some (.ulonglong s.files)
  | .ping => some (.ulonglong s.ping)
  | _ => none

def data (m : ServerTableModel) (row : ℕ) (column : Column) (role : ItemDataRole) : QVariant :=
  match m.servers[row]? with
  | none => .invalid
  | some s =>
    if role = .textAlignment then
      if column = .users ∨ column = .files ∨ column = .ping then alignRight else alignLeft
    else
      match if role = .user then sortKey s column else none with
      | some key => key
      | none =>
        if role ≠ .display then .invalid
        else
          match column with
          | .name => .string (shownName s)
          | .address => .string (shownAddress s)
          | .users => .string (humanCount s.users)
          | .files => .string (humanCount s.files)
          | .ping =>
            .string ((QtText.translate "amule::ServerTableModel" "%1 ms").arg
              (.number s.ping.toNat))
          | .priority => .string s.priorityLabel

/-- The value of a server in a column. -/
def value (s : Server) : Column → CellValue
  | .name => .text (shownName s)
  | .address => .text (shownAddress s)
  | .users => .number s.users.toNat
  | .files => .number s.files.toNat
  | .ping => .number s.ping.toNat
  | .priority => .text s.priorityLabel

end ServerTableModel

structure SharedFileModel where
  files : List SharedFile := []

namespace SharedFileModel

inductive Column
  | name
  | size
  | requests
  | accepted
  | transferred
  | sources
deriving DecidableEq

/-- The keys the switch for `Qt::UserRole` returns; the name breaks out of it. -/
def sortKey (f : SharedFile) : Column → Option QVariant
  | .size => some (.ulonglong f.size)
  | .requests => some (.ulonglong f.requestCount)
  | .accepted => some (.ulonglong f.acceptCount)
  | .transferred => some (.ulonglong f.transferred)
  | .sources => some (.ulonglong f.completeSources)
  | .name => none

def data (m : SharedFileModel) (row : ℕ) (column : Column) (role : ItemDataRole) : QVariant :=
  match m.files[row]? with
  | none => .invalid
  | some f =>
    if role = .textAlignment then if column ≠ .name then alignRight else alignLeft
    else
      match if role = .user then sortKey f column else none with
      | some key => key
      | none =>
        if role ≠ .display then .invalid
        else
          match column with
          | .name => .string f.name
          | .size => .string (humanBytes f.size)
          | .requests => .string (.number f.requestCount.toNat)
          | .accepted => .string (.number f.acceptCount.toNat)
          | .transferred => .string (humanBytes f.transferred)
          | .sources => .string (.number f.completeSources.toNat)

/-- The value of a shared file in a column. -/
def value (f : SharedFile) : Column → CellValue
  | .name => .text f.name
  | .size => .number f.size.toNat
  | .requests => .number f.requestCount.toNat
  | .accepted => .number f.acceptCount.toNat
  | .transferred => .number f.transferred.toNat
  | .sources => .number f.completeSources.toNat

end SharedFileModel

/-! ## Sorting -/

/-- A table whose columns can be clicked to sort it. -/
inductive SortableTable
  | downloads (m : DownloadTableModel)
  | results (m : SearchResultModel)
  | servers (m : ServerTableModel)
  | sharedFiles (m : SharedFileModel)

namespace SortableTable

abbrev Column : SortableTable → Type
  | .downloads _ => DownloadTableModel.Column
  | .results _ => SearchResultModel.Column
  | .servers _ => ServerTableModel.Column
  | .sharedFiles _ => SharedFileModel.Column

def rowCount : SortableTable → ℕ
  | .downloads m => m.downloads.length
  | .results m => m.results.length
  | .servers m => m.servers.length
  | .sharedFiles m => m.files.length

def data : (t : SortableTable) → ℕ → t.Column → ItemDataRole → QVariant
  | .downloads m => m.data
  | .results m => m.data
  | .servers m => m.data
  | .sharedFiles m => m.data

/-- What the cell of an existing row stands for. -/
def value : (t : SortableTable) → ℕ → t.Column → CellValue
  | .downloads m, row => DownloadTableModel.value (m.downloads.getD row {})
  | .results m, row => SearchResultModel.value (m.results.getD row {})
  | .servers m, row => ServerTableModel.value (m.servers.getD row {})
  | .sharedFiles m, row => SharedFileModel.value (m.files.getD row {})

/-- The model has sort keys for the column. -/
def Keyed : (t : SortableTable) → t.Column → Prop
  | .servers _, column => column ≠ .name ∧ column ≠ .address ∧ column ≠ .priority
  | .sharedFiles _, column => column ≠ .name
  | _, _ => True

/-- The rows the proxy's filter lets through, in the order of the model. -/
def rows (t : SortableTable) (accepted : ℕ → Bool) : List ℕ :=
  (List.range t.rowCount).filter accepted

/-- The rows as the table's proxy lists them, sorted by a column. No rows are anchored. -/
def sorted (t : SortableTable) (lessThan : QVariant → QVariant → Bool) (accepted : ℕ → Bool)
    (column : t.Column) (order : SortOrder) : List ℕ :=
  let lessThanRow (left right : ℕ) : Bool :=
    lessThan (t.data left column .user) (t.data right column .user)
  match t with
  | .results m =>
    ({ sortOrder := order } : SearchResultFilterProxy).sorted lessThanRow
      ((SortableTable.results m).rows accepted)
  | t => StableSort.sort (fun a b => order.goesBefore lessThanRow a b = true) (t.rows accepted)

/-- If the values of the rows differ, then `a` is the one to come first. -/
def InOrder (t : SortableTable) (column : t.Column) (order : SortOrder) (a b : ℕ) : Prop :=
  t.value a column ≠ t.value b column → order.Before (t.value a column) (t.value b column)

/-- The list has the rows in the order of their values. -/
structure OrderedByValue (t : SortableTable) (accepted : ℕ → Bool) (column : t.Column)
    (order : SortOrder) (listed : List ℕ) : Prop where
  perm : listed.Perm (t.rows accepted)
  ordered : listed.Pairwise (t.InOrder column order)

/-- Keys are compared as the values of their cells are. -/
theorem lessThan_of_keyed {lessThan : QVariant → QVariant → Bool} (h : ComparesKeys lessThan)
    (t : SortableTable) (column : t.Column) (hkeyed : t.Keyed column) {a b : ℕ}
    (ha : a < t.rowCount) (hb : b < t.rowCount) :
    lessThan (t.data a column .user) (t.data b column .user) = true ↔
      t.value a column < t.value b column := by
  cases t with
  | downloads m =>
    obtain ⟨d, hd⟩ : ∃ d, m.downloads[a]? = some d := ⟨_, List.getElem?_eq_getElem ha⟩
    obtain ⟨e, he⟩ : ∃ e, m.downloads[b]? = some e := ⟨_, List.getElem?_eq_getElem hb⟩
    cases column <;>
      simp [data, DownloadTableModel.data, value, DownloadTableModel.value, hd, he, h.uint,
        h.ulonglong, h.float, h.string, UInt32.lt_iff_toNat_lt, UInt64.lt_iff_toNat_lt]
  | results m =>
    obtain ⟨r, hr⟩ : ∃ r, m.results[a]? = some r := ⟨_, List.getElem?_eq_getElem ha⟩
    obtain ⟨q, hq⟩ : ∃ q, m.results[b]? = some q := ⟨_, List.getElem?_eq_getElem hb⟩
    cases column <;>
      simp [data, SearchResultModel.data, value, SearchResultModel.value, hr, hq, h.ulonglong,
        h.string, UInt64.lt_iff_toNat_lt]
  | servers m =>
    obtain ⟨s, hs⟩ : ∃ s, m.servers[a]? = some s := ⟨_, List.getElem?_eq_getElem ha⟩
    obtain ⟨u, hu⟩ : ∃ u, m.servers[b]? = some u := ⟨_, List.getElem?_eq_getElem hb⟩
    cases column <;>
      simp_all [Keyed, data, ServerTableModel.data, ServerTableModel.sortKey, value,
        ServerTableModel.value, h.ulonglong, UInt64.lt_iff_toNat_lt]
  | sharedFiles m =>
    obtain ⟨f, hf⟩ : ∃ f, m.files[a]? = some f := ⟨_, List.getElem?_eq_getElem ha⟩
    obtain ⟨g, hg⟩ : ∃ g, m.files[b]? = some g := ⟨_, List.getElem?_eq_getElem hb⟩
    cases column <;>
      simp_all [Keyed, data, SharedFileModel.data, SharedFileModel.sortKey, value,
        SharedFileModel.value, h.ulonglong, UInt64.lt_iff_toNat_lt]

/-- Without keys no row is less than another. -/
theorem data_of_not_keyed (t : SortableTable) (column : t.Column) (hkeyed : ¬t.Keyed column)
    (row : ℕ) : t.data row column .user = .invalid := by
  cases t with
  | downloads m => exact absurd trivial hkeyed
  | results m => exact absurd trivial hkeyed
  | servers m =>
    cases hrow : m.servers[row]? <;> cases column <;>
      simp_all [Keyed, data, ServerTableModel.data, ServerTableModel.sortKey]
  | sharedFiles m =>
    cases hrow : m.files[row]? <;> cases column <;>
      simp_all [Keyed, data, SharedFileModel.data, SharedFileModel.sortKey]

/-- All four proxies sort by the keys; the one of the results has nothing anchored. -/
theorem sorted_eq (t : SortableTable) (lessThan : QVariant → QVariant → Bool)
    (accepted : ℕ → Bool) (column : t.Column) (order : SortOrder) :
    t.sorted lessThan accepted column order =
      StableSort.sort (fun a b => order.goesBefore (fun left right =>
        lessThan (t.data left column .user) (t.data right column .user)) a b = true)
        (t.rows accepted) := by
  cases t with
  | downloads m => rfl
  | results m => rfl
  | servers m => rfl
  | sharedFiles m => rfl

section

variable {lessThan : QVariant → QVariant → Bool} (h : ComparesKeys lessThan) (t : SortableTable)
  (accepted : ℕ → Bool) (column : t.Column) (order : SortOrder)

include h

/-- By a column with keys the rows are sorted by their values. -/
theorem ordered_of_keyed (hkeyed : t.Keyed column) :
    t.OrderedByValue accepted column order (t.sorted lessThan accepted column order) := by
  have hlt {row : ℕ} (hrow : row ∈ t.rows accepted) : row < t.rowCount :=
    List.mem_range.mp (List.mem_filter.mp hrow).1
  have hsorted : t.sorted lessThan accepted column order =
      StableSort.sort (fun a b => order.Before (t.value a column) (t.value b column))
        (t.rows accepted) := by
    rw [sorted_eq]
    refine StableSort.sort_congr fun a ha b hb => ?_
    exact SortOrder.goesBefore_iff_before (f := fun row => t.value row column)
      (lessThan_of_keyed h t column hkeyed (hlt ha) (hlt hb))
      (lessThan_of_keyed h t column hkeyed (hlt hb) (hlt ha))
  rw [hsorted]
  refine ⟨StableSort.perm_sort _, ?_⟩
  have := SortOrder.isStrictWeakOrder_before order fun row => t.value row column
  exact (StableSort.ordered_sort _).imp fun hba hne => SortOrder.before_of_not_before hba hne

/-- By a column without keys the rows are left as they are. -/
theorem sorted_of_not_keyed (hkeyed : ¬t.Keyed column) :
    t.sorted lessThan accepted column order = t.rows accepted := by
  have hless (a b : ℕ) :
      lessThan (t.data a column .user) (t.data b column .user) = false := by
    rw [data_of_not_keyed t column hkeyed, data_of_not_keyed t column hkeyed, h.invalid]
  rw [sorted_eq]
  refine StableSort.sort_of_ordered (List.pairwise_of_forall fun a b => ?_)
  cases order with
  | ascending => simp [SortOrder.goesBefore, hless]
  | descending => simp [SortOrder.goesBefore, hless]

/-- Sorting by a column orders the rows by their values exactly if the model has keys for the
    column, or the rows stand in that order anyway. -/
theorem ordered_by_value_iff :
    t.OrderedByValue accepted column order (t.sorted lessThan accepted column order) ↔
      t.Keyed column ∨ (t.rows accepted).Pairwise (t.InOrder column order) := by
  by_cases hkeyed : t.Keyed column
  · exact iff_of_true (ordered_of_keyed h t accepted column order hkeyed) (.inl hkeyed)
  · rw [sorted_of_not_keyed h t accepted column order hkeyed]
    exact ⟨fun hordered => .inr hordered.ordered,
      fun hrows => ⟨.refl _, hrows.resolve_left hkeyed⟩⟩

end

end SortableTable

end

/-- A comparison for closed examples. No column has keys of two types. -/
def sampleLessThan : QVariant → QVariant → Bool
  | .uint v, .uint w => v < w
  | .ulonglong v, .ulonglong w => v < w
  | .float v, .float w => v < w
  | .string s, .string t => s.map (·.toNat) < t.map (·.toNat)
  | _, _ => false

theorem sampleLessThan_comparesKeys : ComparesKeys sampleLessThan :=
  ⟨rfl, fun _ _ => rfl, fun _ _ => rfl, fun _ _ => rfl, fun _ _ => rfl⟩

/-- A Qt for closed examples, which looks at no text of a number. -/
abbrev sampleQtText : QtText where
  translate _ sourceText := .lit sourceText
  fixed _ _ := []

namespace SortableTable

/-- The names and the numbers of users of two servers are the wrong way round. -/
abbrev twoServers : SortableTable :=
  .servers ⟨[{ name := .lit "b", users := 20 }, { name := .lit "a", users := 10 }]⟩

theorem ordered_by_value_twoServers :
    letI := sampleQtText
    twoServers.OrderedByValue (fun _ => true) ServerTableModel.Column.users .ascending
      (twoServers.sorted sampleLessThan (fun _ => true) ServerTableModel.Column.users
        .ascending) := by
  let _ : QtText := sampleQtText
  refine (ordered_by_value_iff sampleLessThan_comparesKeys twoServers _ _ _).mpr (.inl ?_)
  exact ⟨by decide, by decide, by decide⟩

/-- A click on the header of the names does nothing. -/
theorem not_ordered_by_value_twoServers :
    letI := sampleQtText
    ComparesKeys sampleLessThan ∧
      ¬twoServers.OrderedByValue (fun _ => true) ServerTableModel.Column.name .ascending
        (twoServers.sorted sampleLessThan (fun _ => true) ServerTableModel.Column.name
          .ascending) := by
  let _ : QtText := sampleQtText
  refine ⟨sampleLessThan_comparesKeys, fun h => ?_⟩
  have hkeyed : ¬twoServers.Keyed ServerTableModel.Column.name := fun h => h.1 rfl
  have hordered := h.ordered
  rw [sorted_of_not_keyed sampleLessThan_comparesKeys _ _ _ _ hkeyed] at hordered
  have hnames : twoServers.InOrder ServerTableModel.Column.name .ascending 0 1 :=
    (List.pairwise_cons.mp hordered).1 1 (by decide)
  exact absurd (hnames (by decide +kernel)) (by decide +kernel)

end SortableTable

end Amule
