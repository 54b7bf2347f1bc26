import Mathlib.Data.List.DropRight
import Mathlib.Data.List.Induction

/-!
# Records kept alive by incremental reports

A report lists keyed entries. It is merged into the records entry by entry, a key
that had no record starting from `start`, and the records of keys that the report
does not list are dropped.

What is left after any number of reports depends on the end of the history only:
the record of a key is the fold of its entries over the last reports that all list
it. A field that each entry either sets or leaves alone has the value that was set
last.

## Main results

- `LiveRecords.foldl_applyReport` — the records after a history of reports
- `LiveRecords.foldl_field` — a field of a record after a list of entries
-/

namespace LiveRecords

variable {κ ε ρ : Type*}

def listed (report : List (κ × ε)) : List κ := report.map Prod.fst

/-- The last report lists the key. -/
def ListedLast (k : κ) (reports : List (List (κ × ε))) : Prop :=
  ∃ report, reports.getLast? = some report ∧ k ∈ listed report

theorem listedLast_concat {k : κ} {reports : List (List (κ × ε))} {report : List (κ × ε)} :
    ListedLast k (reports ++ [report]) ↔ k ∈ listed report := by
  simp [ListedLast]

variable [DecidableEq κ]

/-- The entries of a key, in the order of the report. -/
def entriesOf (k : κ) (report : List (κ × ε)) : List ε :=
  report.filterMap fun e => if e.1 = k then some e.2 else none

/-- The last reports that all list a key. -/
def finalStretch (k : κ) (reports : List (List (κ × ε))) : List (List (κ × ε)) :=
  reports.rtakeWhile fun report => k ∈ listed report

/-- The entries of a key that its record is made of. -/
def liveEntries (k : κ) (reports : List (List (κ × ε))) : List ε :=
  (finalStretch k reports).flatMap (entriesOf k)

variable (merge : κ → ρ → ε → ρ) (start : κ → ρ)

def applyReport (live : κ → Option ρ) (report : List (κ × ε)) (k : κ) : Option ρ :=
  if k ∈ listed report then
    some ((entriesOf k report).foldl (merge k) ((live k).getD (start k)))
  else none

theorem liveEntries_concat {k : κ} {reports : List (List (κ × ε))} {report : List (κ × ε)}
    (h : k ∈ listed report) :
    liveEntries k (reports ++ [report]) = liveEntries k reports ++ entriesOf k report := by
  rw [liveEntries, finalStretch, List.rtakeWhile_concat_pos _ _ _ (by simpa using h),
    List.flatMap_append, List.flatMap_singleton]
  rfl

theorem liveEntries_of_not_listedLast {k : κ} {reports : List (List (κ × ε))}
    (h : ¬ListedLast k reports) : liveEntries k reports = [] := by
  cases reports using List.reverseRecOn with
  | nil => rfl
  | append_singleton reports report =>
    rw [listedLast_concat] at h
    rw [liveEntries, finalStretch, List.rtakeWhile_concat_neg _ _ _ (by simpa using h)]
    rfl

theorem entriesOf_ne_nil {k : κ} {report : List (κ × ε)} (h : k ∈ listed report) :
    entriesOf k report ≠ [] := by
  obtain ⟨e, he, rfl⟩ := List.mem_map.mp h
  exact List.ne_nil_of_mem (List.mem_filterMap.mpr ⟨e, he, if_pos rfl⟩)

theorem liveEntries_ne_nil {k : κ} {reports : List (List (κ × ε))} (h : ListedLast k reports) :
    liveEntries k reports ≠ [] := by
  cases reports using List.reverseRecOn with
  | nil =>
    obtain ⟨report, hlast, -⟩ := h
    simp at hlast
  | append_singleton reports report =>
    rw [listedLast_concat] at h
    rw [liveEntries_concat h]
    exact List.append_ne_nil_of_right_ne_nil _ (entriesOf_ne_nil h)

/-- After any history the keys are those of the last report, and each has the entries of the
    reports that kept it alive. -/
theorem foldl_applyReport (reports : List (List (κ × ε))) (k : κ) :
    (ListedLast k reports → reports.foldl (applyReport merge start) (fun _ => none) k =
      some ((liveEntries k reports).foldl (merge k) (start k))) ∧
    (¬ListedLast k reports → reports.foldl (applyReport merge start) (fun _ => none) k = none) := by
  induction reports using List.reverseRecOn with
  | nil => exact ⟨fun ⟨_, hlast, _⟩ => by simp at hlast, fun _ => rfl⟩
  | append_singleton reports report ih =>
    rw [listedLast_concat, List.foldl_concat]
    refine ⟨fun h => ?_, fun h => if_neg h⟩
    -- a key that was not alive starts again, as if it had no entries
    have hbefore : (reports.foldl (applyReport merge start) (fun _ => none) k).getD (start k) =
        (liveEntries k reports).foldl (merge k) (start k) := by
      by_cases halive : ListedLast k reports
      · rw [ih.1 halive, Option.getD_some]
      · rw [ih.2 halive, liveEntries_of_not_listedLast halive]
        rfl
    rw [applyReport, if_pos h, hbefore, liveEntries_concat h, List.foldl_append]

/-- A field that an entry sets to what `read` finds in it has the value found last. -/
theorem foldl_field {β : Type*} {step : ρ → ε → ρ} (field : ρ → β) (read : ε → Option β)
    (h : ∀ r e, field (step r e) = (read e).getD (field r)) (r : ρ) (es : List ε) :
    field (es.foldl step r) = (es.filterMap read).getLast?.getD (field r) := by
  induction es using List.reverseRecOn with
  | nil => rfl
  | append_singleton es e ih =>
    rw [List.foldl_concat, h, ih, List.filterMap_append]
    cases hread : read e with
    | none => simp [hread]
    | some v => simp [hread]

end LiveRecords
