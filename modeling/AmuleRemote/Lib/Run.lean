import Mathlib.Init

/-!
# Runs of a deterministic step function

`Always step P s acts` says that `P` holds in every state of the run of `acts`
from `s`, the first and the last included, and `Along step C s acts` that every
step of the run meets the condition `C`, in the state it starts from. In
`Followed step C s acts` the condition also sees the steps that are still to come.

## Main results

- `Run.always_of_invariant` — an invariant kept by the steps that meet `C` holds
  throughout every run whose steps meet `C`
- `Run.along_of_invariant` — what such an invariant says of each of these steps
  holds along the run
- `Run.always_iff_along` — when a valid step keeps the invariant exactly if it
  meets `C`, so do the runs of valid steps; `Run.always_iff_along_within` lets the
  steps rely on what every step keeps
-/

namespace Run

variable {σ α : Type*} (step : σ → α → σ)

def Always (P : σ → Prop) : σ → List α → Prop
  | s, [] => P s
  | s, a :: acts => P s ∧ Always P (step s a) acts

def Along (C : σ → α → Prop) : σ → List α → Prop
  | _, [] => True
  | s, a :: acts => C s a ∧ Along C (step s a) acts

def Followed (C : σ → α → List α → Prop) : σ → List α → Prop
  | _, [] => True
  | s, a :: acts => C s a acts ∧ Followed C (step s a) acts

instance decidableAlways (P : σ → Prop) [DecidablePred P] :
    (s : σ) → (acts : List α) → Decidable (Always step P s acts)
  | s, [] => inferInstanceAs (Decidable (P s))
  | s, a :: acts =>
    have := decidableAlways P (step s a) acts
    inferInstanceAs (Decidable (P s ∧ Always step P (step s a) acts))

instance decidableAlong (C : σ → α → Prop) [∀ s a, Decidable (C s a)] :
    (s : σ) → (acts : List α) → Decidable (Along step C s acts)
  | _, [] => isTrue trivial
  | s, a :: acts =>
    have := decidableAlong C (step s a) acts
    inferInstanceAs (Decidable (C s a ∧ Along step C (step s a) acts))

variable {step}

theorem Always.head {P : σ → Prop} {s : σ} {acts : List α} (h : Always step P s acts) : P s := by
  cases acts with
  | nil => exact h
  | cons a acts => exact h.1

theorem Always.mono {P Q : σ → Prop} (hPQ : ∀ s, P s → Q s) {s : σ} {acts : List α}
    (h : Always step P s acts) : Always step Q s acts := by
  induction acts generalizing s with
  | nil => exact hPQ s h
  | cons a acts ih => exact ⟨hPQ s h.1, ih h.2⟩

theorem always_of_invariant {Inv : σ → Prop} {C : σ → α → Prop}
    (hstep : ∀ s a, Inv s → C s a → Inv (step s a)) {s : σ} {acts : List α} (hs : Inv s)
    (hacts : Along step C s acts) : Always step Inv s acts := by
  induction acts generalizing s with
  | nil => exact hs
  | cons a acts ih => exact ⟨hs, ih (hstep s a hs hacts.1) hacts.2⟩

/-- Such an invariant holds in the state that the run ends in. -/
theorem foldl_of_invariant {Inv : σ → Prop} {C : σ → α → Prop}
    (hstep : ∀ s a, Inv s → C s a → Inv (step s a)) {s : σ} {acts : List α} (hs : Inv s)
    (hacts : Along step C s acts) : Inv (acts.foldl step s) := by
  induction acts generalizing s with
  | nil => exact hs
  | cons a acts ih => exact ih (hstep s a hs hacts.1) hacts.2

theorem along_of_invariant {Inv : σ → Prop} {C D : σ → α → Prop}
    (hstep : ∀ s a, Inv s → C s a → Inv (step s a) ∧ D s a) {s : σ} {acts : List α} (hs : Inv s)
    (hacts : Along step C s acts) : Along step D s acts := by
  induction acts generalizing s with
  | nil => trivial
  | cons a acts ih =>
    obtain ⟨hnext, hD⟩ := hstep s a hs hacts.1
    exact ⟨hD, ih hnext hacts.2⟩

theorem along_iff_forall {V : α → Prop} {s : σ} {acts : List α} :
    Along step (fun _ a => V a) s acts ↔ ∀ a ∈ acts, V a := by
  induction acts generalizing s with
  | nil => exact iff_of_true trivial fun a ha => absurd ha List.not_mem_nil
  | cons a acts ih => rw [List.forall_mem_cons, ← ih (s := step s a), Along]

theorem along_of_forall {V : α → Prop} {s : σ} {acts : List α} (hacts : ∀ a ∈ acts, V a) :
    Along step (fun _ a => V a) s acts := along_iff_forall.mpr hacts

theorem Along.and_forall {V : α → Prop} {C : σ → α → Prop} {s : σ} {acts : List α}
    (hacts : ∀ a ∈ acts, V a) (h : Along step C s acts) :
    Along step (fun s a => V a ∧ C s a) s acts := by
  induction acts generalizing s with
  | nil => trivial
  | cons a acts ih =>
    obtain ⟨ha, hrest⟩ := List.forall_mem_cons.mp hacts
    exact ⟨⟨ha, h.1⟩, ih hrest h.2⟩

theorem Followed.mono {C D : σ → α → List α → Prop} (hCD : ∀ s a acts, C s a acts → D s a acts)
    {s : σ} {acts : List α} (h : Followed step C s acts) : Followed step D s acts := by
  induction acts generalizing s with
  | nil => trivial
  | cons a acts ih => exact ⟨hCD s a acts h.1, ih h.2⟩

theorem always_iff_along_within {I Inv : σ → Prop} {V : α → Prop} {C : σ → α → Prop}
    (hI : ∀ s a, I s → I (step s a))
    (hstep : ∀ s a, V a → I s → Inv s → (Inv (step s a) ↔ C s a)) {s : σ} {acts : List α}
    (hacts : ∀ a ∈ acts, V a) (hs : I s) (hInv : Inv s) :
    Always step Inv s acts ↔ Along step C s acts := by
  induction acts generalizing s with
  | nil => exact iff_of_true hInv trivial
  | cons a acts ih =>
    have ha : V a := hacts a List.mem_cons_self
    have hrest : ∀ b ∈ acts, V b := fun b hb => hacts b (List.mem_cons_of_mem a hb)
    constructor
    · rintro ⟨-, halways⟩
      have hnext : Inv (step s a) := halways.head
      exact ⟨(hstep s a ha hs hInv).mp hnext, (ih hrest (hI s a hs) hnext).mp halways⟩
    · rintro ⟨hC, halong⟩
      have hnext : Inv (step s a) := (hstep s a ha hs hInv).mpr hC
      exact ⟨hInv, (ih hrest (hI s a hs) hnext).mpr halong⟩

theorem always_iff_along {Inv : σ → Prop} {V : α → Prop} {C : σ → α → Prop}
    (hstep : ∀ s a, V a → Inv s → (Inv (step s a) ↔ C s a)) {s : σ} {acts : List α}
    (hacts : ∀ a ∈ acts, V a) (hs : Inv s) : Always step Inv s acts ↔ Along step C s acts :=
  always_iff_along_within (I := fun _ => True) (fun _ _ => id) (fun s a ha _ => hstep s a ha)
    hacts trivial hs

end Run
