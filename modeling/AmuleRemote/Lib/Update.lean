import Mathlib.Logic.Function.Basic
import Mathlib.Data.List.Nodup

/-!
# Writing the members of a record one by one

A record whose members are named by `α` is a function from names to values, and
a loop over bindings `b` writes `val b` to the member `key b`.

## Main results

- `Update.foldl_eq_writeAll` — a loop over a larger state that writes one member a step
- `Update.writeAll_eq_iff` — bindings of distinct members produce a given record
  if and only if each writes the member's value in it and the members left
  unbound have it already
-/

namespace Update

variable {α β γ : Type*} [DecidableEq α] (key : β → α) (val : β → γ)

def writeAll (bindings : List β) (record : α → γ) : α → γ :=
  bindings.foldl (fun record b => Function.update record (key b) (val b)) record

variable {key val} {bindings : List β} {record target : α → γ}

/-- A loop over a state that a record determines, each step of which writes one member,
    leaves the state of the record with every member written. -/
theorem foldl_eq_writeAll {σ : Type*} (put : (α → γ) → σ) {step : σ → β → σ}
    (hstep : ∀ record b, step (put record) b = put (Function.update record (key b) (val b)))
    (bindings : List β) (record : α → γ) :
    bindings.foldl step (put record) = put (writeAll key val bindings record) := by
  induction bindings generalizing record with
  | nil => rfl
  | cons b bindings ih =>
    rw [List.foldl_cons, hstep, ih]
    rfl

theorem writeAll_of_notMem {a : α} (h : a ∉ bindings.map key) :
    writeAll key val bindings record a = record a := by
  induction bindings generalizing record with
  | nil => rfl
  | cons b bindings ih =>
    rw [List.map_cons, List.mem_cons, not_or] at h
    show writeAll key val bindings (Function.update record (key b) (val b)) a = record a
    rw [ih h.2, Function.update_of_ne h.1]

theorem writeAll_of_mem (hnodup : (bindings.map key).Nodup) {b : β} (hb : b ∈ bindings) :
    writeAll key val bindings record (key b) = val b := by
  induction bindings generalizing record with
  | nil => exact absurd hb List.not_mem_nil
  | cons b' bindings ih =>
    rw [List.map_cons, List.nodup_cons] at hnodup
    show writeAll key val bindings (Function.update record (key b') (val b')) (key b) = val b
    rcases List.mem_cons.mp hb with rfl | hb
    · rw [writeAll_of_notMem hnodup.1, Function.update_self]
    · exact ih hnodup.2 hb

/-- The record that bindings of distinct members produce, member by member. -/
theorem writeAll_eq_iff (hnodup : (bindings.map key).Nodup) :
    writeAll key val bindings record = target ↔
      (∀ b ∈ bindings, val b = target (key b)) ∧
        ∀ a, a ∉ bindings.map key → record a = target a := by
  constructor
  · -- read both parts off the record that was produced
    rintro rfl
    refine ⟨fun b hb => ?_, fun a ha => ?_⟩
    · rw [writeAll_of_mem hnodup hb]
    · rw [writeAll_of_notMem ha]
  · rintro ⟨hbound, hunbound⟩
    funext a
    by_cases ha : a ∈ bindings.map key
    · obtain ⟨b, hb, rfl⟩ := List.mem_map.mp ha
      rw [writeAll_of_mem hnodup hb, hbound b hb]
    · rw [writeAll_of_notMem ha, hunbound a ha]

end Update
