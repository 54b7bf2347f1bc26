import AmuleRemote.App.System
import AmuleRemote.Ec.Orders

/-!
# What the user has commanded

The window puts its commands into a queue and the worker takes them from there, at
its own pace and between refreshes of its own. However this goes, the daemon is
given no order that the user has not given, none twice and none out of turn: those
it is sent are what is left of the commands once some are ignored for want of a
connection and some still wait.

## Main results

- `System.orders_commanded` — the orders sent are among the commands, in their order
-/

namespace Amule

open Ec

namespace System

variable [Qt]

/-- The commands that a step puts into the queue. -/
def issues (s : System) (act : Action) : List Command :=
  match act with
  | .run _ => []
  | act => (s.step act).commands.drop s.commands.length

/-- The commands of a run, as they are issued. -/
def issued : System → List Action → List Command
  | _, [] => []
  | s, act :: acts => s.issues act ++ (s.step act).issued acts

def commandOrders (commands : List Command) : List Packet := commands.filterMap (·.slot.order)

/-- The orders that have been sent, and those that wait. -/
def promised (s : System) : List Packet :=
  (ordersSent s.session.trace).map Prod.snd ++ commandOrders s.commands

omit [Qt] in
theorem commandOrders_append (a b : List Command) :
    commandOrders (a ++ b) = commandOrders a ++ commandOrders b := List.filterMap_append

/-- A call sends the order of its slot or nothing. -/
theorem ordersSent_call (s : System) (c : Call) :
    ((ordersSent (s.call c).session.trace).map Prod.snd).Sublist
      ((ordersSent s.session.trace).map Prod.snd ++ c.slot.order.toList) := by
  obtain ⟨events, htrace, hcourse⟩ := s.session.step_course c
  have hsent : (s.call c).session.trace = s.session.trace ++ events := htrace
  rw [hsent, ordersSent_append, List.map_append, hcourse.ordersSent]
  refine (List.Sublist.refl _).append ?_
  cases hclient : s.session.worker.client with
  | none =>
    rw [c.slot.orderOn_unheld hclient]
    exact List.nil_sublist _
  | some client =>
    cases horder : c.slot.order with
    | none =>
      rw [Slot.orderOn_none horder]
      exact List.nil_sublist _
    | some request =>
      rw [Slot.orderOn_held hclient horder]
      exact List.Sublist.refl _

/-- What the window does, and a signal that it takes, only add to the commands. -/
theorem step_issues (s : System) {act : Action} (hrun : ∀ network, act ≠ .run network)
    (hfired : ∀ network, act ≠ .timerFired network) :
    (s.step act).session = s.session ∧ (s.step act).commands = s.commands ++ s.issues act := by
  have hadded : ∃ new, (s.step act).session = s.session ∧
      (s.step act).commands = s.commands ++ new := by
    have hsteps := s.steps act
    generalize s.step act = s' at hsteps
    cases hsteps with
    | idle => exact ⟨[], rfl, (List.append_nil _).symm⟩
    | command hslot => exact ⟨_, rfl, rfl⟩
    | edited panel => exact ⟨[], rfl, (List.append_nil _).symm⟩
    | applied hconnected => exact ⟨_, rfl, rfl⟩
    | searched hsearch => exact ⟨_, rfl, rfl⟩
    | @closed index search stops hclose s' hs' =>
      -- closing the tab of the search stops it
      subst hs'
      cases stops with
      | true => exact ⟨_, rfl, rfl⟩
      | false => exact ⟨[], rfl, (List.append_nil _).symm⟩
    | delivered hsignals => exact ⟨[], rfl, (List.append_nil _).symm⟩
    | ran hcommands => exact absurd rfl (hrun _)
    | fired network => exact absurd rfl (hfired _)
  obtain ⟨new, hsession, hcommands⟩ := hadded
  refine ⟨hsession, ?_⟩
  have hissues : s.issues act = (s.step act).commands.drop s.commands.length := by
    cases act with
    | run network => exact absurd rfl (hrun network)
    | _ => rfl
  rw [hissues, hcommands, List.drop_left]

/-- A step promises no more than it issues. -/
theorem promised_step (s : System) (act : Action) :
    (s.step act).promised.Sublist (s.promised ++ commandOrders (s.issues act)) := by
  have hadded (hrun : ∀ network, act ≠ .run network)
      (hfired : ∀ network, act ≠ .timerFired network) :
      (s.step act).promised.Sublist (s.promised ++ commandOrders (s.issues act)) := by
    obtain ⟨hsession, hcommands⟩ := s.step_issues hrun hfired
    rw [promised, promised, hsession, hcommands, commandOrders_append, List.append_assoc]
  cases act with
  | run network =>
    simp only [step, issues]
    split
    · exact List.sublist_append_left _ _
    · next c commands hcommands =>
      -- the order either moves from the queue to the daemon or is lost
      have hsent := ordersSent_call { s with commands } ⟨c.slot, network⟩
      have hpending : commandOrders s.commands =
          c.slot.order.toList ++ commandOrders commands := by
        rw [hcommands, commandOrders, List.filterMap_cons]
        cases c.slot.order <;> rfl
      rw [promised, promised, hpending, ← List.append_assoc]
      exact (hsent.append (List.Sublist.refl _)).trans (List.sublist_append_left _ _)
  | timerFired network =>
    have hsent := s.ordersSent_call ⟨.timeout, network⟩
    rw [show (Call.slot ⟨.timeout, network⟩).order.toList = [] from rfl, List.append_nil] at hsent
    have hissues : s.issues (.timerFired network) = [] := List.drop_length
    rw [hissues, promised, promised, step]
    exact (hsent.append (List.Sublist.refl _)).trans (List.sublist_append_left _ _)
  | _ => exact hadded (by simp) (by simp)

/-- Nor does a run. -/
theorem promised_run (s : System) (acts : List Action) :
    (acts.foldl step s).promised.Sublist (s.promised ++ commandOrders (s.issued acts)) := by
  induction acts generalizing s with
  | nil => exact List.sublist_append_left _ _
  | cons act acts ih =>
    rw [issued, commandOrders_append, ← List.append_assoc]
    exact (ih (s.step act)).trans ((s.promised_step act).append (List.Sublist.refl _))

/-- The orders that the daemon is sent are among those the user has commanded, in their
    order, and each is sent at most once. -/
theorem orders_commanded (acts : List Action) :
    ((ordersSent (acts.foldl step {}).session.trace).map Prod.snd).Sublist
      (commandOrders (issued {} acts)) := by
  have hrun := promised_run {} acts
  rw [promised, show promised {} = [] from rfl, List.nil_append] at hrun
  exact (List.sublist_append_left _ _).trans hrun

end System

end Amule
