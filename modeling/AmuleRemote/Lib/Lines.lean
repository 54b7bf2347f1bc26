import Mathlib.Logic.Basic

/-!
# Reading terminated lines

Text is read a line at a time, each line with the terminator that ends it; what
is left behind the last terminator is a line too.

## Main results

- `Lines.read_flatMap` — lines that were written are read one by one
-/

namespace Lines

variable {α β : Type*} [DecidableEq α]

/-- The lines of a text, with their terminators. -/
def read (stop : α) : List α → List (List α)
  | [] => []
  | a :: rest =>
    if a = stop then [a] :: read stop rest
    else
      match read stop rest with
      | [] => [[a]]
      | line :: lines => (a :: line) :: lines

/-- The first line ends at the first terminator. -/
theorem read_append {stop : α} {line : List α} (h : stop ∉ line) (rest : List α) :
    read stop (line ++ stop :: rest) = (line ++ [stop]) :: read stop rest := by
  induction line with
  | nil => simp [read]
  | cons a line ih =>
    rw [List.mem_cons, not_or] at h
    rw [List.cons_append, read, if_neg (Ne.symm h.1), ih h.2]
    rfl

/-- What is written line by line is read line by line. -/
theorem read_flatMap {stop : α} {line : β → List α} (items : List β)
    (h : ∀ item ∈ items, stop ∉ line item) :
    read stop (items.flatMap fun item => line item ++ [stop]) =
      items.map fun item => line item ++ [stop] := by
  induction items with
  | nil => rfl
  | cons item items ih =>
    obtain ⟨hitem, hitems⟩ := List.forall_mem_cons.mp h
    rw [List.flatMap_cons, List.append_assoc, List.singleton_append, read_append hitem, ih hitems,
      List.map_cons]

end Lines
