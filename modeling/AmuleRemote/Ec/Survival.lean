import AmuleRemote.Ec.Refreshing
import AmuleRemote.Lib.Run

/-!
# What a connection survives

A command that the daemon refuses, or answers with what cannot be read, is logged
and leaves the connection. Only a transport error is to invalidate it. The refresh
that follows the command does not ask what kind of error it meets.

## Main results

- `keepsClient_iff` — a call without a transport error keeps the connection if and
  only if its refresh fails with nothing else
-/

namespace Amule

open Ec

/-- Without a transport error the connection is still held after the call. -/
def Session.KeepsClient [Qt] (s : Session) (c : Call) : Prop :=
  c.slot.Stays → ∀ client, s.worker.client = some client →
    (∀ ev ∈ s.events c, ¬ev.Io) → (s.step c).worker.client = some client

/-- If an exchange of the call's refresh fails, the first to do so fails with a transport
    error. -/
def Session.FailsByIo (s : Session) (c : Call) : Prop :=
  c.slot.Stays → s.worker.client ≠ none →
    ∀ r ∈ c.slot.refreshes s.worker c.network, ∀ e, r.2.FailsFirst r.1 e → e.kind = .io

/-- A refresh that has all its answers keeps the connection, and fails with nothing. -/
theorem Midway.keepsClient [Qt] {s : Session} {c : Call} {v w : World} {k : ℕ}
    {reads : List UInt32} (hclean : c.slot.Stays → Clean (s.world c.network) v)
    (hrefreshes : c.slot.refreshes s.worker c.network =
      some (v.worker.searching, v.network))
    (hmidway : Midway v k reads w) (hk : k = refreshLength v.worker.searching)
    (hclient : (s.step c).worker.client = w.worker.client) :
    s.KeepsClient c ↔ s.FailsByIo c := by
  refine iff_of_true ?_ ?_
  · intro hstays client hheld _
    obtain ⟨sources, hworker⟩ := hmidway.worker
    calc (s.step c).worker.client
      _ = w.worker.client := hclient
      _ = v.worker.client := by rw [hworker]
      _ = s.worker.client := (hclean hstays).client
      _ = some client := hheld
  · intro _ _ r hr e hfails
    obtain ⟨j, hj, hfail, -⟩ := hfails
    rw [hrefreshes] at hr
    obtain rfl := Option.some.inj hr
    obtain ⟨reply, hreply⟩ := hmidway.answered j (hk ▸ hj)
    exact absurd (hfail.symm.trans hreply) nofun

/-- A refresh that fails loses the connection, whatever the error. -/
theorem Interrupted.keepsClient [Qt] {s : Session} {c : Call} {v w : World} {e : EcError}
    {reason : QString} (hclean : c.slot.Stays → Clean (s.world c.network) v)
    (hrefreshes : c.slot.refreshes s.worker c.network =
      some (v.worker.searching, v.network))
    (hlost : Interrupted v e w) (hstep : s.step c = (w.tornDown reason .error).session) :
    s.KeepsClient c ↔ s.FailsByIo c := by
  have hnone : (s.step c).worker.client = none := by
    rw [hstep]
    exact World.client_tornDown w reason .error
  have hevents (hstays : c.slot.Stays) : (∃ ev ∈ s.events c, ev.Io) ↔ e.kind = .io := by
    obtain ⟨before, hbefore, hquiet⟩ := (hclean hstays).trace
    obtain ⟨events, htrace, hio⟩ := hlost.trace
    have hall : (s.step c).trace = s.trace ++ (before ++ events ++
        ((if w.worker.searching then [.emit none (.searchingChanged false)] else []) ++
          [.emit none (.statusChanged .error reason)])) := by
      have hdown := w.trace_tornDown reason .error
      rw [htrace, hbefore] at hdown
      rw [hstep]
      simp only [List.append_assoc] at hdown ⊢
      exact hdown
    have hemits : ∀ ev ∈ (if w.worker.searching then
        [Event.emit none (.searchingChanged false)] else []) ++
          [.emit none (.statusChanged .error reason)], ¬ev.Io := by
      split <;> simp [Event.Io]
    rw [Session.events_eq hall, ← hio]
    constructor
    · rintro ⟨ev, hev, hbroke⟩
      rcases List.mem_append.mp hev with hev | hev
      · cases List.mem_append.mp hev with
        | inl hev => exact absurd hbroke (hquiet ev hev)
        | inr hev => exact ⟨ev, hev, hbroke⟩
      · exact absurd hbroke (hemits ev hev)
    · rintro ⟨ev, hev, hbroke⟩
      exact ⟨ev, List.mem_append_left _ (List.mem_append_right _ hev), hbroke⟩
  constructor
  · intro hkeeps hstays hheld r hr e' hfails
    rw [hrefreshes] at hr
    obtain rfl := Option.some.inj hr
    rw [hfails.unique hlost.first]
    by_contra hkind
    obtain ⟨client, hclient⟩ := Option.ne_none_iff_exists'.mp hheld
    have hkept := hkeeps hstays client hclient fun ev hev hio =>
      hkind ((hevents hstays).mp ⟨ev, hev, hio⟩)
    exact Option.some_ne_none client (hkept.symm.trans hnone)
  · intro hfails hstays client hclient hquiet
    have hheld : s.worker.client ≠ none := hclient ▸ Option.some_ne_none client
    have hkind := hfails hstays hheld _ hrefreshes e hlost.first
    obtain ⟨ev, hev, hio⟩ := (hevents hstays).mpr hkind
    exact absurd hio (hquiet ev hev)

/-- One call, from any state. -/
theorem Session.keepsClient_call [Qt] (s : Session) (c : Call) :
    s.KeepsClient c ↔ s.FailsByIo c := by
  obtain ⟨after, hstep, hends⟩ := s.step_ends c
  cases hends with
  | ended hrefreshes hled hclean =>
    have hnone : c.slot.refreshes s.worker c.network = none := hrefreshes
    refine iff_of_true ?_ ?_
    · intro hstays client hheld hquiet
      rcases hclean hstays with hclean | ⟨events, htrace, ev, hev, hio⟩
      · rw [hstep]
        exact hclean.client.trans hheld
      · have hall : (s.step c).trace = s.trace ++ events := by
          rw [hstep]
          exact htrace
        rw [Session.events_eq hall] at hquiet
        exact absurd hio (hquiet ev hev)
    · intro _ _ r hr
      rw [hnone] at hr
      exact absurd hr nofun
  | refreshed hled hheld hnow hrefreshes hclean =>
    rename_i v
    have houtcome := EcWorker.onRefresh_outcome hheld
    generalize (EcWorker.onRefresh.run v).2 = w at hstep houtcome
    cases houtcome with
    | idle off midway =>
      refine midway.keepsClient hclean hrefreshes ?_ (by rw [hstep]; rfl)
      rw [off]
      rfl
    | polled on _ midway =>
      refine midway.keepsClient hclean hrefreshes ?_ ?_
      · rw [on]
        rfl
      · rw [hstep]
        exact World.client_noted _ _
    | lost interrupted => exact interrupted.keepsClient hclean hrefreshes hstep

/-- Along a run, the calls without a transport error keep the connection if and only if the
    refreshes fail with nothing else. -/
theorem keepsClient_iff [Qt] (s : Session) (calls : List Call) :
    Run.Along Session.step Session.KeepsClient s calls ↔
      Run.Along Session.step Session.FailsByIo s calls := by
  have hsame : Session.KeepsClient = Session.FailsByIo := by
    funext s c
    exact propext (s.keepsClient_call c)
  rw [hsame]

/-- A daemon that compresses its replies, which the client never asks for. -/
def Network.compressing : Network where
  replies _ := .error ⟨.remote, .lit "received a zlib-compressed reply (unsupported)"⟩

/-- A tick of the refresh timer, met by compressed replies. -/
def compressedReply : List Call := [
  ⟨.connectToDaemon (.lit "localhost") 4712 [], .friendly⟩,
  ⟨.timeout, .compressing⟩]

/-- The connection is lost although no exchange failed with a transport error. -/
theorem not_keepsClient_compressedReply :
    ¬Run.Along (@Session.step sampleQt) (@Session.KeepsClient sampleQt) {} compressedReply := by
  let _ : Qt := sampleQt
  rintro ⟨-, hkeeps, -⟩
  have hkept := hkeeps trivial ⟨0, .lit "unknown"⟩ (by decide +kernel) (by decide +kernel)
  exact absurd hkept (by decide +kernel)

end Amule
