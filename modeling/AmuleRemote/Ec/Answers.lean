import AmuleRemote.Ec.Alignment
import AmuleRemote.Ec.Pairing
import AmuleRemote.Ec.Sent

/-!
# What a run is answered

The worker's run over sockets. To the worker an exchange has an outcome; where the
outcomes come from is a socket for every connection, with whatever it does. Frames
carry no number by which a reply could be told to belong to a request. It is their
place that tells: the `i`-th exchange on a connection reads the `i`-th frame that the
daemon sent on it, as long as nothing is read after an error of kind `Io`, which may
leave the socket in the middle of a frame.

## Main results

- `Carried.answeredBy` — a connection that is left after such an error stays in step
- `replies_answered` — so does every connection of a careful run
-/

namespace Amule

namespace Ec

/-! ## Frames one behind the other -/

namespace Frame

/-- Where a frame ends can be seen from its beginning. -/
theorem eq_of_append_eq {f g : Frame} {a b : QByteArray} (h : f.bytes ++ a = g.bytes ++ b) :
    f = g ∧ a = b := by
  obtain ⟨flags, payload, hsize⟩ := f
  obtain ⟨flags', payload', hsize'⟩ := g
  simp only [bytes, List.append_assoc] at h
  obtain ⟨hflags, hrest⟩ := List.append_inj h (by simp only [BigEndian.length_toBytes])
  obtain ⟨hlength, hbody⟩ := List.append_inj hrest (by simp only [BigEndian.length_toBytes])
  have hsame : payload.length = payload'.length := BigEndian.toBytes_inj hsize hsize' hlength
  obtain ⟨rfl, rfl⟩ := List.append_inj hbody hsame
  obtain rfl : flags = flags' :=
    UInt32.toNat_inj.mp (BigEndian.toBytes_inj flags.toNat_lt flags'.toNat_lt hflags)
  exact ⟨rfl, rfl⟩

theorem bytes_ne_nil (f : Frame) : f.bytes ≠ [] := by
  intro h
  have hlength := congrArg List.length h
  simp only [bytes, List.length_append, BigEndian.length_toBytes, List.length_nil] at hlength
  omega

/-- What begins with a frame, out of the bytes of others, begins with the first of them. -/
theorem exists_of_prefix {f : Frame} {rest : QByteArray} {frames : List Frame}
    (h : f.bytes ++ rest <+: frames.flatMap bytes) :
    ∃ others, frames = f :: others ∧ rest <+: others.flatMap bytes := by
  cases frames with
  | nil =>
    have hnil := List.append_eq_nil_iff.mp (List.prefix_nil.mp h)
    exact absurd hnil.1 f.bytes_ne_nil
  | cons g others =>
    obtain ⟨more, hmore⟩ := h
    rw [List.flatMap_cons, List.append_assoc] at hmore
    obtain ⟨rfl, hrest⟩ := eq_of_append_eq hmore
    exact ⟨others, rfl, more, hrest⟩

end Frame

/-! ## A connection -/

/-- A request and what came of it. -/
abbrev Exchange := Packet × Except EcError Packet

section

variable [Qt]

/-- These exchanges are made on the socket, one after the other, with the event loop taking in
    some chunks before each. -/
inductive Carried : Socket → List Exchange → Prop
  | nil (s : Socket) : Carried s []
  | cons {s s' : Socket} {request : Packet} {result : Except EcError Packet}
      {done : List Exchange} (chunks : ℕ)
      (exchanged : exchange request (Socket.deliver^[chunks] s) = (result, s'))
      (rest : Carried s' done) : Carried s ((request, result) :: done)

/-- The results are the replies of the first frames, but for an error of kind `Io` at the end. -/
inductive AnsweredBy (frames : List Frame) : List (Except EcError Packet) → Prop
  | whole {results : List (Except EcError Packet)} (h : results <+: frames.map Frame.reply) :
      AnsweredBy frames results
  | broken {results : List (Except EcError Packet)} (h : results <+: frames.map Frame.reply)
      {result : Except EcError Packet} (hio : isIo result = true) :
      AnsweredBy frames (results ++ [result])

theorem AnsweredBy.cons {frames : List Frame} {results : List (Except EcError Packet)}
    (h : AnsweredBy frames results) (f : Frame) :
    AnsweredBy (f :: frames) (f.reply :: results) := by
  cases h with
  | whole h => exact .whole ((List.prefix_cons_inj _).mpr h)
  | @broken results h result hio =>
    rw [← List.cons_append]
    exact .broken ((List.prefix_cons_inj _).mpr h) hio

/-- On a connection that is left after an error of kind `Io`, every exchange reads the frame in
    its place. -/
theorem Carried.answeredBy {s : Socket} {done : List Exchange} (h : Carried s done)
    (hleft : done.Pairwise fun e _ => isIo e.2 = false) {frames : List Frame}
    (hbytes : s.unread <+: frames.flatMap Frame.bytes) :
    AnsweredBy frames (done.map Prod.snd) := by
  induction h generalizing frames with
  | nil s => exact .whole List.nil_prefix
  | @cons s s' request result done chunks hexchanged hrest ih =>
    obtain ⟨hlast, hlater⟩ := List.pairwise_cons.mp hleft
    cases hio : isIo result with
    | true =>
      -- nothing may follow
      cases done with
      | nil =>
        show AnsweredBy frames ([] ++ [result])
        exact .broken List.nil_prefix hio
      | cons next done =>
        have hno := hlast next List.mem_cons_self
        exact absurd (hio.symm.trans hno) (by decide)
    | false =>
      obtain ⟨f, rfl, hunread⟩ := exchange_boundary hexchanged hio
      rw [Socket.unread_iterate_deliver] at hunread
      rw [hunread] at hbytes
      obtain ⟨others, rfl, hothers⟩ := Frame.exists_of_prefix hbytes
      exact (ih hlater hothers).cons f

omit [Qt] in
theorem sends_readLoop (n : ℕ) (buf : QByteArray) (s : Socket) :
    (readLoop n buf s).2.sends = s.sends := by
  have hready {s s' : Socket} {result : Bool} (h : s.ready = (result, s')) :
      s'.sends = s.sends := by
    rw [Socket.ready] at h
    split at h
    · rw [Socket.waitForReadyRead] at h
      split at h <;> exact (congrArg (·.2.sends) h).symm
    · exact (congrArg (·.2.sends) h).symm
  fun_induction readLoop n buf s with
  | case1 buf s hlt s₁ hfalse => exact hready hfalse
  | case2 buf s hlt s₁ htrue hclosed =>
    show s₁.sends = s.sends
    exact hready htrue
  | case3 buf s hlt s₁ htrue hopen ih =>
    have hwaited : s₁.sends = s.sends := hready htrue
    exact ih.trans hwaited
  | case4 buf s hge => rfl

/-- Reading leaves what is still to be sent. -/
theorem sends_readPacket (s : Socket) : (readPacket s).2.sends = s.sends := by
  have hreads {n : ℕ} {s s' : Socket} {result : Except EcError QByteArray}
      (h : readExactly n s = (result, s')) : s'.sends = s.sends := by
    have hsends := sends_readLoop n [] s
    rw [readExactly] at h
    rwa [h] at hsends
  rw [readPacket]
  split
  · next hheader => exact hreads hheader
  · next hheader =>
    dsimp only
    split
    · next hpayload => exact (hreads hpayload).trans (hreads hheader)
    · next hpayload =>
      have hboth := (hreads hpayload).trans (hreads hheader)
      split
      · exact hboth
      · split <;> exact hboth

/-- On a socket that delivers, exchanges are answered by the frames that it has. -/
theorem carried_of_delivers {done : List Exchange} {frames : List Frame}
    (hdone : done.map Prod.snd <+: frames.map Frame.reply) {s : Socket} (hs : s.Delivers)
    (hsends : s.sends = []) (hunread : s.unread = frames.flatMap Frame.bytes) :
    Carried s done := by
  induction done generalizing frames s with
  | nil => exact .nil s
  | cons e done ih =>
    obtain ⟨request, result⟩ := e
    cases frames with
    | nil => exact absurd (List.prefix_nil.mp hdone) (List.cons_ne_nil _ _)
    | cons f frames =>
      obtain ⟨rfl, hrest⟩ := List.cons_prefix_cons.mp hdone
      obtain ⟨s', hread, hs', hunread'⟩ :=
        readPacket_spec f (frames.flatMap Frame.bytes) s hs hunread
      have hexchange : exchange request s = (f.reply, s') := by
        rw [exchange, Socket.send, hsends]
        exact hread
      have hsends' : s'.sends = [] := by
        have hkept := sends_readPacket s
        rwa [hread, hsends] at hkept
      exact .cons 0 hexchange (ih hrest hs' hsends' hunread')

end

end Ec

open Ec

/-! ## A run -/

/-- The event as an exchange on connection `id`. -/
def Event.exchangeOn (id : ℕ) : Event → Option Exchange
  | .exchange client request result => if client.id = id then some (request, result) else none
  | .emit _ _ => none

/-- The exchanges on connection `id`. -/
def exchangesOn (id : ℕ) (trace : List Event) : List Exchange :=
  trace.filterMap (Event.exchangeOn id)

theorem Event.of_exchangeOn {id : ℕ} {ev : Event} {e : Exchange}
    (h : ev.exchangeOn id = some e) :
    ev.Uses id ∧ (isIo e.2 = true → ev.Broke id) := by
  cases ev with
  | emit held signal => cases h
  | exchange client request result =>
    rw [Event.exchangeOn] at h
    split at h
    · next hid =>
      obtain rfl := Option.some.inj h
      refine ⟨hid, fun hio => ?_⟩
      cases result with
      | ok reply => cases hio
      | error e => exact ⟨hid, of_decide_eq_true hio⟩
    · cases h

/-- A connection that is not used again has no exchange after an error of kind `Io`. -/
theorem NoReuse.exchangesOn {trace : List Event} (h : NoReuse trace) (id : ℕ) :
    (Amule.exchangesOn id trace).Pairwise fun e _ => isIo e.2 = false := by
  refine h.filterMap _ fun ev ev' hev e he e' he' => ?_
  have hfirst := Event.of_exchangeOn he
  have hsecond := Event.of_exchangeOn he'
  exact Bool.eq_false_iff.mpr fun hio => hev id (hfirst.2 hio) hsecond.1

/-- A number that has not been given to a connection yet. -/
theorem exchangesOn_eq_nil {s : Session} (h : ∀ network, (s.world network).Paired) {id : ℕ}
    (hid : s.nextId ≤ id) : exchangesOn id s.trace = [] := by
  refine List.filterMap_eq_nil_iff.mpr fun ev hev => Option.eq_none_iff_forall_ne_some.mpr ?_
  intro e he
  have hlt : id < s.nextId := (h .friendly).known ev hev id (Event.of_exchangeOn he).1
  exact absurd hid (Nat.not_le.mpr hlt)

theorem paired_run [Qt] {calls : List Call}
    (hcareful : Run.Along Session.step CarefulCall {} calls) (network : Network) :
    ((calls.foldl Session.step {}).world network).Paired := by
  have hstart (network : Network) : (Session.world {} network).Paired :=
    ⟨⟨.nil, by simp [Session.world]⟩, by simp [Session.world]⟩
  exact Run.foldl_of_invariant Session.paired_step hstart hcareful network

/-- In a careful run over sockets, whatever they do, the exchanges on a connection are answered
    by the frames that the daemon sent on it, one by one from the first, and an error of kind
    `Io` is the last of them. -/
theorem replies_answered [Qt] {calls : List Call}
    (hcareful : Run.Along Session.step CarefulCall {} calls) {sockets : ℕ → Socket}
    {frames : ℕ → List Frame}
    (hbytes : ∀ id, (sockets id).unread <+: (frames id).flatMap Frame.bytes)
    (hcarried : ∀ id, Carried (sockets id) (exchangesOn id (calls.foldl Session.step {}).trace))
    (id : ℕ) :
    AnsweredBy (frames id)
      ((exchangesOn id (calls.foldl Session.step {}).trace).map Prod.snd) := by
  have hnoReuse : NoReuse (calls.foldl Session.step {}).trace :=
    (paired_run hcareful .friendly).noReuse
  exact (hcarried id).answeredBy (hnoReuse.exchangesOn id) (hbytes id)

/-- A login, and a refresh. -/
def loginAndRefresh : List Call :=
  [⟨.connectToDaemon (.lit "localhost") 4712 [], .friendly⟩, ⟨.timeout, .friendly⟩]

theorem length_lt_three : ([Op.authOk, 0, 0] : QByteArray).length < 2 ^ 32 := by decide

/-- The friendly daemon's reply. -/
def friendlyFrame : Frame := ⟨Flag.base, [Op.authOk, 0, 0], length_lt_three⟩

/-- The daemon's bytes come one at a time. -/
theorem replies_answered_loginAndRefresh :
    letI := sampleQt
    let results := (exchangesOn 0 (loginAndRefresh.foldl Session.step {}).trace).map Prod.snd
    14 ≤ results.length ∧ AnsweredBy (List.replicate 20 friendlyFrame) results := by
  let _ : Qt := sampleQt
  let frames := List.replicate 20 friendlyFrame
  let socket := Socket.dripping (frames.flatMap Frame.bytes)
  have hcareful : Run.Along Session.step CarefulCall {} loginAndRefresh := by
    refine ⟨fun n e hlogin herror => ?_, trivial, trivial⟩
    have hn : Network.friendly.next = n := Option.some.inj hlogin
    rw [← hn] at herror
    exact absurd herror nofun
  have hunread : socket.unread = frames.flatMap Frame.bytes := Socket.unread_dripping _
  have hcarried (id : ℕ) :
      Carried socket (exchangesOn id (loginAndRefresh.foldl Session.step {}).trace) := by
    refine carried_of_delivers ?_ (Socket.delivers_dripping _) rfl hunread
    cases id with
    | zero => decide +kernel
    | succ id =>
      -- there is only one connection
      have hnext : (loginAndRefresh.foldl Session.step {}).nextId = 1 := by decide +kernel
      have hnone : exchangesOn (id + 1) (loginAndRefresh.foldl Session.step {}).trace = [] :=
        exchangesOn_eq_nil (paired_run hcareful) (hnext ▸ Nat.le_add_left 1 id)
      rw [hnone]
      exact List.nil_prefix
  exact ⟨by decide +kernel,
    @replies_answered _ _ hcareful (fun _ => socket) (fun _ => frames)
      (fun _ => hunread ▸ List.prefix_refl _) hcarried 0⟩

end Amule
