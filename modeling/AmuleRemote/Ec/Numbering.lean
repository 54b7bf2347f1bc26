import AmuleRemote.Ec.Pairing

/-!
# The numbers of the connections

A connection takes the next number, so nothing in the trace has used the number
that the next connection will take.
-/

namespace Amule

open Ec Std.Do

structure World.Numbered (w : World) : Prop where
  used : ∀ ev ∈ w.trace, ∀ id, ev.Uses id → id < w.nextId
  held : ∀ client, w.worker.client = some client → client.id < w.nextId

namespace World

variable {w w' : World}

theorem Numbered.append (h : w.Numbered) (events : List Event)
    (htrace : w'.trace = w.trace ++ events) (hid : w.nextId ≤ w'.nextId)
    (hevents : ∀ ev ∈ events, ∀ id, ev.Uses id → id < w'.nextId)
    (hclient : ∀ client, w'.worker.client = some client → client.id < w'.nextId) :
    w'.Numbered where
  used := by
    rw [htrace]
    intro ev hev id hused
    cases List.mem_append.mp hev with
    | inl hev => exact (h.used ev hev id hused).trans_le hid
    | inr hev => exact hevents ev hev id hused
  held := hclient

theorem Numbered.emitted (h : w.Numbered) (s : Signal) : (w.emitted s).Numbered :=
  h.append [_] rfl le_rfl (by simp [Event.Uses]) h.held

theorem Numbered.setWorker (h : w.Numbered) {worker : EcWorker}
    (hclient : ∀ client, worker.client = some client → client.id < w.nextId) :
    (w.setWorker worker).Numbered := ⟨h.used, hclient⟩

theorem Numbered.exchanged (h : w.Numbered) {client : EcClient}
    (hheld : w.worker.client = some client) (request : Packet) :
    (w.exchanged client request).Numbered := by
  refine h.append [_] rfl le_rfl ?_ h.held
  intro ev hev id hused
  rw [List.mem_singleton.mp hev] at hused
  exact hused ▸ h.held client hheld

theorem Numbered.tornDown (h : w.Numbered) (reason : QString) (status : ConnStatus) :
    (w.tornDown reason status).Numbered := by
  apply tornDown_keeps
  · exact fun hw => hw.emitted _
  · exact fun _ hw => hw.setWorker hw.held
  · exact h.setWorker nofun

end World

theorem numbered_contract : Contract World.Numbered fun _ => World.Numbered where
  reply _ _ hheld := hheld.1.exchanged hheld.2 _
  fail _ _ hheld := hheld.1.exchanged hheld.2 _
  refuse hw := hw
  recover _ hw := hw
  work hclient _ hw := hw.setWorker (hclient ▸ hw.held)
  emit _ hw := hw.emitted _
  prefs hheld _ := hheld.1.emitted _
  log hw := hw.emitted _
  halt hw := by
    refine World.Numbered.emitted ?_ _
    exact hw.setWorker hw.held
  teardown hw := hw.tornDown _ _

theorem numbered_whole : Whole World.Numbered where
  toRules := numbered_contract.rules
  starts params := numbered_contract.starts params fun _ hw => hw.setWorker hw.held
  write _ hheld := hheld.1.exchanged hheld.2 _
  disconnect hw := hw.tornDown _ _

namespace World

variable {w w' : World}

theorem Numbered.connecting (h : w.Numbered) (host : QString) (port : UInt16) :
    (w.connecting host port).Numbered := by
  refine Numbered.emitted (Numbered.emitted ?_ _) _
  exact h.setWorker h.held

theorem Numbered.adopted (h : w.Numbered) {client : EcClient} (hw : Accepted w client w') :
    (w'.adopted client).Numbered := by
  obtain ⟨events, htrace, hevents⟩ := hw.trace
  have hnext : w'.nextId = w.nextId + 1 := hw.nextId
  refine Numbered.emitted (Numbered.emitted ?_ _) _
  refine h.append events htrace (by simp [hnext]) ?_ ?_
  · intro ev hev id hused
    rw [(hevents ev hev).1.uses hused]
    simp [hnext]
  · intro c hheld
    rw [← Option.some.inj hheld, hw.id]
    simp [hnext]

theorem Numbered.refused (h : w.Numbered) (hw : Refused w w') (message : QString) :
    (w'.refused message).Numbered := by
  obtain ⟨events, htrace, hevents, -⟩ := hw.trace
  have hnext : w'.nextId = w.nextId + 1 := hw.nextId
  refine Numbered.emitted (Numbered.emitted ?_ _) _
  refine h.append events htrace (by simp [hnext]) ?_ ?_
  · intro ev hev id hused
    rw [(hevents ev hev).uses hused, hnext]
    exact Nat.lt_succ_self _
  · intro client hheld
    rw [hw.worker] at hheld
    exact (h.held client hheld).trans (hnext ▸ Nat.lt_succ_self _)

end World

/-- Every slot call keeps the numbering. -/
theorem numbered_call [Qt] {w : World} (slot : Slot) (hw : w.Numbered) :
    (slot.call.run w).2.Numbered := by
  cases slot with
  | connectToDaemon host port password =>
    have hconnecting := hw.connecting host port
    have haccept {client w'} (haccepted : Accepted (w.connecting host port) client w')
        (_ : Shaken (w.connecting host port) w') : ((w'.adopted client).settled client).Numbered :=
      numbered_contract.settled ⟨hconnecting.adopted haccepted, rfl⟩ fun _ => id
    have hcall := EcWorker.connectToDaemon_spec numbered_contract.rules host port password haccept
    rcases hcall with hnumbered | ⟨w', message, hrefused, -, heq⟩
    · exact hnumbered
    · exact heq ▸ hconnecting.refused hrefused message
  | shutdown => exact (EcWorker.shutdown_keeps fun w hw => hw.setWorker nofun).run hw
  | _ =>
    refine Keeps.run ?_ hw
    exact numbered_whole.keeps trivial

def Session.Numbered (s : Session) : Prop := ∀ network, (s.world network).Numbered

theorem Session.Numbered.step [Qt] {s : Session} (hs : s.Numbered) (c : Call) :
    (s.step c).Numbered := by
  intro network
  have hcall := numbered_call c.slot (hs c.network)
  exact ⟨hcall.used, hcall.held⟩

theorem Session.numbered_start : Session.Numbered {} := by
  intro network
  exact ⟨by simp [Session.world], by simp [Session.world]⟩

end Amule
