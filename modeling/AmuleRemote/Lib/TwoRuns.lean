import Mathlib.Control.Basic
import Mathlib.Tactic.Common

/-!
# Two runs of a stateful computation

What a computation may depend on, in terms of two of its runs: started in states
that `R` relates, they leave states that `R` relates, and what they return is
related as well. Where `R` leaves something open, the computation does not let it
show.

`Alike` is about computations over a state, `AlikeExcept` about those that may also
fail; they fail together and with the same error. The rules follow the monads.
-/

namespace TwoRuns

variable {σ ε α β α' β' : Type}

/-- The results of two computations that may fail. -/
inductive Results (Q : α → β → Prop) : Except ε α → Except ε β → Prop
  | ok {a : α} {b : β} (h : Q a b) : Results Q (.ok a) (.ok b)
  | error (e : ε) : Results Q (.error e) (.error e)

theorem Results.refl {Q : α → α → Prop} (hQ : ∀ a, Q a a) (r : Except ε α) : Results Q r r := by
  cases r with
  | ok a => exact .ok (hQ a)
  | error e => exact .error e

/-- From related states the two computations return related results and leave related
    states. -/
def Alike (R : σ → σ → Prop) (Q : α → β → Prop) (x : StateM σ α) (y : StateM σ β) : Prop :=
  ∀ s t, R s t → Q (x.run s).1 (y.run t).1 ∧ R (x.run s).2 (y.run t).2

/-- The same for computations that may fail. -/
def AlikeExcept (R : σ → σ → Prop) (Q : α → β → Prop) (x : ExceptT ε (StateM σ) α)
    (y : ExceptT ε (StateM σ) β) : Prop := Alike R (Results Q) x.run y.run

variable {R : σ → σ → Prop} {Q : α → β → Prop} {Q' : α' → β' → Prop}

namespace Alike

protected theorem pure {a : α} {b : β} (h : Q a b) :
    Alike R Q (Pure.pure a : StateM σ α) (Pure.pure b : StateM σ β) :=
  fun _ _ hR => ⟨h, hR⟩

/-- What follows starts from related results, in related states. -/
protected theorem bind {x : StateM σ α} {y : StateM σ β} {f : α → StateM σ α'}
    {g : β → StateM σ β'} (hx : Alike R Q x y) (hf : ∀ a b, Q a b → Alike R Q' (f a) (g b)) :
    Alike R Q' (x >>= f) (y >>= g) := by
  intro s t hR
  obtain ⟨hab, hnext⟩ := hx s t hR
  exact hf _ _ hab _ _ hnext

protected theorem get : Alike R R (MonadState.get : StateM σ σ) MonadState.get :=
  fun _ _ hR => ⟨hR, hR⟩

protected theorem modify {f g : σ → σ} (h : ∀ s t, R s t → R (f s) (g t)) :
    Alike R Eq (modify f : StateM σ PUnit) (modify g) :=
  fun s t hR => ⟨rfl, h s t hR⟩

end Alike

namespace AlikeExcept

variable {x : ExceptT ε (StateM σ) α} {y : ExceptT ε (StateM σ) β}

protected theorem pure {a : α} {b : β} (h : Q a b) :
    AlikeExcept R Q (Pure.pure a : ExceptT ε (StateM σ) α) (Pure.pure b) :=
  Alike.pure (.ok h)

protected theorem throw (e : ε) :
    AlikeExcept R Q (throw e : ExceptT ε (StateM σ) α) (throw e : ExceptT ε (StateM σ) β) :=
  Alike.pure (.error e)

/-- A failure skips what follows on both sides. -/
protected theorem bind {f : α → ExceptT ε (StateM σ) α'} {g : β → ExceptT ε (StateM σ) β'}
    (hx : AlikeExcept R Q x y) (hf : ∀ a b, Q a b → AlikeExcept R Q' (f a) (g b)) :
    AlikeExcept R Q' (x >>= f) (y >>= g) := by
  show Alike R (Results Q') (x.run >>= ExceptT.bindCont f) (y.run >>= ExceptT.bindCont g)
  refine Alike.bind hx fun r r' h => ?_
  cases h with
  | ok hab => exact hf _ _ hab
  | error e => exact Alike.pure (.error e)

/-- A computation that cannot fail, as one that may. -/
protected theorem lift {x : StateM σ α} {y : StateM σ β} (h : Alike R Q x y) :
    AlikeExcept R Q (liftM x : ExceptT ε (StateM σ) α) (liftM y) :=
  h.bind fun _ _ hab => Alike.pure (.ok hab)

end AlikeExcept

end TwoRuns
