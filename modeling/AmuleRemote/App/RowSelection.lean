import Mathlib.Data.Finset.Basic

/-!
# Rows, layouts and selections

The table models take a new list of rows either in place or by a reset. They take
it in place when it has the same keys in the same order, so that the views keep
their selection over a periodic refresh.

A view's selection is a set of rows and a current row. Of Qt it is assumed that a
reset clears both without telling anyone, and that rows replaced in place leave
them alone.
-/

namespace Amule

/-- What a table model tells its views. -/
inductive ModelSignal
  | dataChanged
  | modelReset
deriving DecidableEq

/-- The same keys in the same order. -/
def sameKeys {α κ : Type} [DecidableEq κ] (key : α → κ) (rows old : List α) : Bool :=
  rows.length = old.length && (rows.zip old).all fun r => key r.1 = key r.2

theorem sameKeys_iff {α κ : Type} [DecidableEq κ] {key : α → κ} {rows old : List α} :
    sameKeys key rows old = true ↔ rows.map key = old.map key := by
  induction rows generalizing old with
  | nil => cases old <;> simp [sameKeys]
  | cons a rows ih =>
    cases old with
    | nil => simp [sameKeys]
    | cons b old =>
      rw [List.map_cons, List.map_cons, List.cons.injEq, ← ih]
      simp only [sameKeys, List.length_cons, List.zip_cons_cons, List.all_cons, Bool.and_eq_true,
        decide_eq_true_eq, Nat.add_right_cancel_iff]
      exact and_left_comm

/-- The same layout has the same key in every row. -/
theorem getElem?_of_sameKeys {α κ : Type} [DecidableEq κ] {key : α → κ} {rows old : List α}
    (h : sameKeys key rows old = true) (row : ℕ) : rows[row]?.map key = old[row]?.map key := by
  rw [← List.getElem?_map, ← List.getElem?_map, sameKeys_iff.mp h]

/-- The selected rows of a view and its current row, as rows of the source model. -/
structure ViewSelection where
  rows : Finset ℕ := ∅
  current : Option ℕ := none
deriving DecidableEq

namespace ViewSelection

/-- What a change of the model does to the selection. -/
def notified (sel : ViewSelection) : ModelSignal → ViewSelection
  | .dataChanged => sel
  | .modelReset => {}

/-- The rows that are selected, or the current row alone while it is one of them. -/
def chosen (sel : ViewSelection) : Finset ℕ :=
  match sel.current with
  | some row => if row ∈ sel.rows then {row} else sel.rows
  | none => sel.rows

/-- Only rows that exist can be selected. -/
def within (sel : ViewSelection) (count : ℕ) : ViewSelection where
  rows := sel.rows.filter (· < count)
  current := sel.current.filter (· < count)

end ViewSelection

end Amule
