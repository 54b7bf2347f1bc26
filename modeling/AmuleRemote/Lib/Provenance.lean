import AmuleRemote.Lib.Trace
import Mathlib.Data.Set.Basic

/-!
# Where names come from

A system mentions names in its state. Some events of its trace bring names in, others
use names. If a step keeps or takes up only names that the state mentions or its events
bring in, and uses only those that the state mentions, then no name is of the system's
own making: in every run, an event uses names that earlier events have brought in.
-/

namespace Provenance

/-- What a system mentions, and what the events of its trace do with names. -/
structure Vocabulary (σ ε ν : Type*) where
  trace : σ → List ε
  mentions : σ → Set ν
  brings : ε → Set ν
  uses : ε → Set ν

namespace Vocabulary

variable {σ α ε ν : Type*} (V : Vocabulary σ ε ν) {s s' : σ}

/-- The names that the events bring in. -/
def brought (events : List ε) : Set ν := {n | ∃ ev ∈ events, n ∈ V.brings ev}

theorem brought_append (a b : List ε) : V.brought (a ++ b) = V.brought a ∪ V.brought b := by
  ext n
  simp only [brought, List.mem_append, Set.mem_union, Set.mem_ofPred_eq, or_and_right, exists_or]

/-- The step uses what `s` mentions, and `s'` mentions no more than this and what is brought
    in. -/
def Passes (s s' : σ) : Prop :=
  ∃ events, V.trace s' = V.trace s ++ events ∧ (∀ ev ∈ events, V.uses ev ⊆ V.mentions s) ∧
    V.mentions s' ⊆ V.mentions s ∪ V.brought events

/-- Every name has been brought in before it is mentioned or used. -/
structure Borrowed (s : σ) : Prop where
  mentions : V.mentions s ⊆ V.brought (V.trace s)
  uses : Trace.Throughout (fun before ev => V.uses ev ⊆ V.brought before) (V.trace s)

variable {V}

/-- A step that does nothing to the trace. -/
theorem Passes.quiet (htrace : V.trace s' = V.trace s) (h : V.mentions s' ⊆ V.mentions s) :
    V.Passes s s' := by
  refine ⟨[], ?_, List.forall_mem_nil _, ?_⟩
  · rw [htrace, List.append_nil]
  · exact h.trans Set.subset_union_left

theorem Borrowed.step (h : V.Borrowed s) (hstep : V.Passes s s') : V.Borrowed s' := by
  obtain ⟨events, htrace, huses, hmentions⟩ := hstep
  refine ⟨?_, ?_⟩
  · rw [htrace, brought_append]
    exact hmentions.trans (Set.union_subset_union_left _ h.mentions)
  · rw [htrace, Trace.throughout_append]
    refine ⟨h.uses, ?_⟩
    rintro before ev after rfl
    have hused : V.uses ev ⊆ V.mentions s :=
      huses ev (List.mem_append_right _ List.mem_cons_self)
    rw [brought_append]
    exact (hused.trans h.mentions).trans Set.subset_union_left

theorem Borrowed.run {step : σ → α → σ} (hstep : ∀ s a, V.Passes s (step s a)) (h : V.Borrowed s)
    (acts : List α) : V.Borrowed (acts.foldl step s) := by
  induction acts generalizing s with
  | nil => exact h
  | cons a acts ih => exact ih (h.step (hstep s a))

end Vocabulary

end Provenance
