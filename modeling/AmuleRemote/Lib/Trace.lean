import Mathlib.Data.List.Induction

/-!
# Events in view of what came before them

`Throughout P trace` says `P before ev` of every event of a trace, where `before`
is the part of the trace that leads to it. A trace is written at its end, so the
rules are about what is appended. `Adds Q trace trace'` says only that: events of
which `Q` holds were appended.
-/

namespace Trace

variable {α : Type*} {P : List α → α → Prop}

def Throughout (P : List α → α → Prop) (trace : List α) : Prop :=
  ∀ before ev after, trace = before ++ ev :: after → P before ev

theorem throughout_nil : Throughout P [] := by
  intro before ev after heq
  exact absurd heq (by simp)

theorem throughout_concat {trace : List α} {ev : α} :
    Throughout P (trace ++ [ev]) ↔ Throughout P trace ∧ P trace ev := by
  constructor
  · intro h
    constructor
    · intro before a after heq
      apply h before a (after ++ [ev])
      rw [heq, List.append_assoc, List.cons_append]
    · exact h trace ev [] rfl
  · rintro ⟨htrace, hev⟩ before a after heq
    -- the event is the last one, or one of those before
    cases after using List.reverseRecOn with
    | nil =>
      obtain ⟨rfl, hlast⟩ := List.append_inj' heq rfl
      rw [← List.head_eq_of_cons_eq hlast]
      exact hev
    | append_singleton after b =>
      rw [← List.cons_append, ← List.append_assoc] at heq
      exact htrace before a after (List.append_inj' heq rfl).1

theorem throughout_singleton {ev : α} : Throughout P [ev] ↔ P [] ev := by
  rw [← List.nil_append [ev], throughout_concat]
  exact and_iff_right throughout_nil

/-- The events may follow a trace: each of them is seen with the trace, and with those of them
    that came before it. -/
def Continues (P : List α → α → Prop) (trace events : List α) : Prop :=
  Throughout (fun before => P (trace ++ before)) events

theorem throughout_append {trace events : List α} :
    Throughout P (trace ++ events) ↔ Throughout P trace ∧ Continues P trace events := by
  induction events using List.reverseRecOn with
  | nil => rw [List.append_nil, Continues, and_iff_left throughout_nil]
  | append_singleton events ev ih =>
    rw [← List.append_assoc, throughout_concat, ih, and_assoc]
    exact and_congr_right fun _ => throughout_concat.symm

theorem continues_nil {trace : List α} : Continues P trace [] := throughout_nil

theorem continues_singleton {trace : List α} {ev : α} : Continues P trace [ev] ↔ P trace ev := by
  rw [Continues, throughout_singleton, List.append_nil]

theorem continues_append {trace a b : List α} :
    Continues P trace (a ++ b) ↔ Continues P trace a ∧ Continues P (trace ++ a) b := by
  rw [Continues, throughout_append]
  refine and_congr_right fun _ => ?_
  simp only [Continues, List.append_assoc]

theorem continues_of_forall {trace events : List α} (h : ∀ ev ∈ events, ∀ before, P before ev) :
    Continues P trace events := by
  rintro before ev after rfl
  exact h ev (List.mem_append_right _ List.mem_cons_self) _

/-- Events of which `P` holds whatever came before them may follow. -/
theorem Throughout.append {trace : List α} (h : Throughout P trace) {events : List α}
    (hevents : ∀ ev ∈ events, ∀ before, P before ev) : Throughout P (trace ++ events) := by
  induction events using List.reverseRecOn with
  | nil => rwa [List.append_nil]
  | append_singleton events ev ih =>
    rw [← List.append_assoc, throughout_concat]
    constructor
    · exact ih fun a ha => hevents a (List.mem_append_left _ ha)
    · exact hevents ev List.mem_concat_self _

/-! ### What is appended -/

variable {Q : α → Prop} {trace trace' trace'' : List α}

/-- The trace goes on with events of which `Q` holds. -/
def Adds (Q : α → Prop) (trace trace' : List α) : Prop :=
  ∃ events, trace' = trace ++ events ∧ ∀ ev ∈ events, Q ev

theorem Adds.refl (trace : List α) : Adds Q trace trace :=
  ⟨[], (List.append_nil _).symm, fun _ hev => absurd hev List.not_mem_nil⟩

theorem Adds.append (h : Adds Q trace trace') {events : List α} (hevents : ∀ ev ∈ events, Q ev) :
    Adds Q trace (trace' ++ events) := by
  obtain ⟨old, rfl, hold⟩ := h
  exact ⟨old ++ events, List.append_assoc .., List.forall_mem_append.mpr ⟨hold, hevents⟩⟩

theorem Adds.trans (h : Adds Q trace trace') (h' : Adds Q trace' trace'') :
    Adds Q trace trace'' := by
  obtain ⟨events, rfl, hevents⟩ := h'
  exact h.append hevents

theorem Adds.one {ev : α} (h : Q ev) : Adds Q trace (trace ++ [ev]) :=
  (Adds.refl trace).append (List.forall_mem_singleton.mpr h)

end Trace
