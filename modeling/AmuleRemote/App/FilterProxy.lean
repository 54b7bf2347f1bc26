import Mathlib.Data.Finset.Basic
import AmuleRemote.Lib.StableSort

/-!
# Anchored rows in the result table

The sorting half of `searchfilterproxy.cpp`. The proxy compares rows of its source
model: by the active column, which is the base class's comparison and an argument
here, unless anchoring is enabled and one of the two rows is anchored. The base
class sorts the rows stably, with the comparison's arguments swapped when the
order is descending.
-/

namespace Amule

/-- `Qt::SortOrder`. -/
inductive SortOrder
  | ascending
  | descending
deriving DecidableEq

/-- How a proxy asks whether the row `a` goes before the row `b`. -/
def SortOrder.goesBefore (order : SortOrder) (lessThan : ℕ → ℕ → Bool) (a b : ℕ) : Bool :=
  match order with
  | .ascending => lessThan a b
  | .descending => lessThan b a

structure SearchResultFilterProxy where
  anchored : Finset ℕ := ∅
  anchorEnabled : Bool := false
  sortOrder : SortOrder := .ascending
deriving DecidableEq

namespace SearchResultFilterProxy

def setAnchored (p : SearchResultFilterProxy) (sourceRows : Finset ℕ) (enabled : Bool) :
    SearchResultFilterProxy :=
  { p with anchored := sourceRows, anchorEnabled := enabled }

/-- `column` is `QSortFilterProxyModel::lessThan`. -/
def lessThan (p : SearchResultFilterProxy) (column : ℕ → ℕ → Bool) (left right : ℕ) : Bool :=
  if p.anchorEnabled then
    let leftAnchored : Bool := left ∈ p.anchored
    let rightAnchored : Bool := right ∈ p.anchored
    if leftAnchored ≠ rightAnchored then
      let leftFirst := leftAnchored
      if p.sortOrder = .ascending then leftFirst else !leftFirst
    else column left right
  else column left right

/-- The rows as the proxy lists them. -/
def sorted (p : SearchResultFilterProxy) (column : ℕ → ℕ → Bool) (rows : List ℕ) : List ℕ :=
  StableSort.sort (fun a b => p.sortOrder.goesBefore (p.lessThan column) a b = true) rows

variable {p : SearchResultFilterProxy} {column : ℕ → ℕ → Bool}

/-- In the order asked for, the anchored rows come first and the column decides the rest. -/
theorem goesBefore_lessThan (hp : p.anchorEnabled = true) (a b : ℕ) :
    p.sortOrder.goesBefore (p.lessThan column) a b = true ↔
      StableSort.First (fun a b => p.sortOrder.goesBefore column a b = true) (· ∈ p.anchored)
        a b := by
  unfold StableSort.First SortOrder.goesBefore lessThan
  simp only [hp, if_true]
  by_cases ha : a ∈ p.anchored <;> by_cases hb : b ∈ p.anchored <;>
    cases p.sortOrder <;> simp [ha, hb]

theorem isStrictWeakOrder_goesBefore (order : SortOrder) (lt : ℕ → ℕ → Bool)
    [IsStrictWeakOrder ℕ fun a b => lt a b = true] :
    IsStrictWeakOrder ℕ fun a b => order.goesBefore lt a b = true := by
  cases order with
  | ascending => assumption
  | descending =>
    exact inferInstanceAs (IsStrictWeakOrder ℕ (Function.swap fun a b => lt a b = true))

/-- Asking twice in the same order is asking the comparison itself. -/
theorem goesBefore_goesBefore (order : SortOrder) (lt : ℕ → ℕ → Bool) :
    order.goesBefore (order.goesBefore lt) = lt := by
  funext a b
  cases order with
  | ascending => rfl
  | descending => rfl

section column

variable (hp : p.anchorEnabled = true) (column) [IsStrictWeakOrder ℕ fun a b => column a b = true]

include hp

theorem isStrictWeakOrder_goesBefore_lessThan :
    IsStrictWeakOrder ℕ fun a b => p.sortOrder.goesBefore (p.lessThan column) a b = true := by
  have hcolumn := isStrictWeakOrder_goesBefore p.sortOrder column
  have heq : (fun a b => p.sortOrder.goesBefore (p.lessThan column) a b = true) =
      StableSort.First (fun a b => p.sortOrder.goesBefore column a b = true) (· ∈ p.anchored) := by
    funext a b
    exact propext (goesBefore_lessThan hp a b)
  rw [heq]
  infer_instance

theorem isStrictWeakOrder_lessThan :
    IsStrictWeakOrder ℕ fun a b => p.lessThan column a b = true := by
  have hbefore := isStrictWeakOrder_goesBefore_lessThan column hp
  have hagain := isStrictWeakOrder_goesBefore p.sortOrder
    (p.sortOrder.goesBefore (p.lessThan column))
  rwa [goesBefore_goesBefore] at hagain

/-- The list is the anchored rows and then the others, each sorted by the column. -/
theorem sorted_eq (rows : List ℕ) :
    p.sorted column rows =
      StableSort.sort (fun a b => p.sortOrder.goesBefore column a b = true)
        (rows.filter (· ∈ p.anchored)) ++
      StableSort.sort (fun a b => p.sortOrder.goesBefore column a b = true)
        (rows.filter (· ∉ p.anchored)) := by
  have hcolumn := isStrictWeakOrder_goesBefore p.sortOrder column
  have hbefore := isStrictWeakOrder_goesBefore_lessThan column hp
  rw [← StableSort.sort_first]
  refine ((StableSort.sorts_sort rows).congr fun a _ b _ => ?_).eq_sort.symm
  exact (goesBefore_lessThan hp a b).symm

end column

/-- With anchoring enabled the comparison is a strict weak order, and sorting by it puts the
    anchored rows before the others, each group in the order of the column. -/
theorem sorted_anchored (hp : p.anchorEnabled = true)
    (hcolumn : IsStrictWeakOrder ℕ fun a b => column a b = true) (rows : List ℕ) :
    (IsStrictWeakOrder ℕ fun a b => p.lessThan column a b = true) ∧
      (p.sorted column rows).Perm rows ∧
      ∃ top rest, p.sorted column rows = top ++ rest ∧
        (∀ row ∈ top, row ∈ p.anchored) ∧ (∀ row ∈ rest, row ∉ p.anchored) ∧
        top.Pairwise (fun a b => p.sortOrder.goesBefore column b a = false) ∧
        rest.Pairwise (fun a b => p.sortOrder.goesBefore column b a = false) := by
  have hbefore := isStrictWeakOrder_goesBefore p.sortOrder column
  refine ⟨isStrictWeakOrder_lessThan column hp, StableSort.perm_sort rows, _, _,
    sorted_eq column hp rows, ?_, ?_, ?_, ?_⟩
  · intro row hrow
    have hmem := List.mem_filter.mp ((StableSort.perm_sort _).mem_iff.mp hrow)
    exact of_decide_eq_true hmem.2
  · intro row hrow
    have hmem := List.mem_filter.mp ((StableSort.perm_sort _).mem_iff.mp hrow)
    exact of_decide_eq_true hmem.2
  · exact (StableSort.ordered_sort _).imp fun h => Bool.eq_false_iff.mpr h
  · exact (StableSort.ordered_sort _).imp fun h => Bool.eq_false_iff.mpr h

theorem isStrictWeakOrder_key (key : ℕ → ℕ) :
    IsStrictWeakOrder ℕ fun a b => decide (key a < key b) = true := by
  simp only [decide_eq_true_eq]
  exact inferInstanceAs (IsStrictWeakOrder ℕ (Function.onFun (· < ·) key))

/-- The odd rows come first when sorted by parity, descending, but for the anchored ones. -/
theorem sorted_anchored_parity :
    let p : SearchResultFilterProxy := ⟨{2, 3}, true, .descending⟩
    ∃ top rest, p.sorted (fun a b => a % 2 < b % 2) [0, 1, 2, 3] = top ++ rest ∧
      (∀ row ∈ top, row ∈ p.anchored) ∧ ∀ row ∈ rest, row ∉ p.anchored := by
  obtain ⟨-, -, top, rest, heq, htop, hrest, -⟩ :=
    sorted_anchored (p := ⟨{2, 3}, true, .descending⟩) rfl (isStrictWeakOrder_key (· % 2))
      [0, 1, 2, 3]
  exact ⟨top, rest, heq, htop, hrest⟩

end SearchResultFilterProxy

end Amule
