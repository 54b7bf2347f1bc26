import Mathlib.Control.Basic
import Mathlib.Tactic.Common

/-!
# Computations that log what they do

A computation that may fail and that writes down its actions as it goes. Its
recursion is allowed a certain depth; where it would go deeper there is no
result at all, which is neither a value nor an error.

`Runs` relates such a computation to the plain one that it stands for: it has a
result and that result is the plain one's, all it did is allowed, and what it
returns is right for the log. The rules follow the monad.
-/

/-- The actions are of type `ι`, the errors of type `ε`. -/
structure Logged (ι ε α : Type) where
  log : List ι
  result : Option (Except ε α)

namespace Logged

variable {ι ε α β : Type}

instance : Monad (Logged ι ε) where
  pure a := ⟨[], some (.ok a)⟩
  bind x f :=
    match x.result with
    | some (.ok a) => ⟨x.log ++ (f a).log, (f a).result⟩
    | some (.error e) => ⟨x.log, some (.error e)⟩
    | none => ⟨x.log, none⟩

def tooDeep : Logged ι ε α := ⟨[], none⟩

def fail (e : ε) : Logged ι ε α := ⟨[], some (.error e)⟩

/-- One action, and what comes of it. -/
def act (i : ι) (r : Except ε α) : Logged ι ε α := ⟨[i], some r⟩

/-- `x` ends as `y` does, does only what `P` allows, and returns what `Q` says of its log. -/
structure Runs (P : ι → Prop) (x : Logged ι ε α) (y : Except ε α) (Q : α → List ι → Prop) :
    Prop where
  result : x.result = some y
  log : ∀ i ∈ x.log, P i
  returns : ∀ a, y = .ok a → Q a x.log

variable {P : ι → Prop}

theorem Runs.pure {a : α} {Q : α → List ι → Prop} (h : Q a []) :
    Runs P (Pure.pure a : Logged ι ε α) (Pure.pure a) Q := by
  refine ⟨rfl, fun i hi => absurd hi List.not_mem_nil, fun a' ha => ?_⟩
  cases ha
  exact h

theorem Runs.fail {e : ε} {Q : α → List ι → Prop} : Runs P (fail e) (.error e) Q :=
  ⟨rfl, fun _ hi => absurd hi List.not_mem_nil, fun _ ha => by simp at ha⟩

theorem Runs.act {i : ι} {r : Except ε α} {Q : α → List ι → Prop} (hi : P i)
    (h : ∀ a, r = .ok a → Q a [i]) : Runs P (act i r) r Q :=
  ⟨rfl, fun _ hj => List.mem_singleton.mp hj ▸ hi, h⟩

/-- What follows a computation starts from what it returned. -/
theorem Runs.bind {x : Logged ι ε α} {y : Except ε α} {Q : α → List ι → Prop}
    {f : α → Logged ι ε β} {g : α → Except ε β} {R : β → List ι → Prop} (hx : Runs P x y Q)
    (hf : ∀ a log, Q a log → Runs P (f a) (g a) fun b log' => R b (log ++ log')) :
    Runs P (x >>= f) (y >>= g) R := by
  obtain ⟨hresult, hlog, hreturns⟩ := hx
  cases y with
  | error e =>
    have hbind : x >>= f = ⟨x.log, some (.error e)⟩ := by simp only [Bind.bind, hresult]
    rw [hbind]
    exact ⟨rfl, hlog, fun b hb => by simp [Bind.bind, Except.bind] at hb⟩
  | ok a =>
    have hnext := hf a x.log (hreturns a rfl)
    have hbind : x >>= f = ⟨x.log ++ (f a).log, (f a).result⟩ := by simp only [Bind.bind, hresult]
    rw [hbind]
    refine ⟨hnext.result, fun i hi => ?_, hnext.returns⟩
    cases List.mem_append.mp hi with
    | inl hi => exact hlog i hi
    | inr hi => exact hnext.log i hi

theorem Runs.mono {x : Logged ι ε α} {y : Except ε α} {Q R : α → List ι → Prop}
    (hx : Runs P x y Q) (hQR : ∀ a log, Q a log → R a log) : Runs P x y R :=
  ⟨hx.result, hx.log, fun a ha => hQR a _ (hx.returns a ha)⟩

end Logged
