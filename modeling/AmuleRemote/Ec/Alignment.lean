import AmuleRemote.Ec.Frames

/-!
# A connection stays in step

Whatever a socket does, with chunks of any size, timeouts, failed sends and a
connection that is closed, a reply that is read is one frame of the bytes that the
daemon sent, from its first byte to its last. This holds of a reply that cannot be
decoded as well as of one that can; only an error of kind `Io` may leave the socket
in the middle of a frame. So up to the first such error the requests on a connection
are answered by its frames, one by one.

## Main results

- `readPacket_boundary` — reading stops at the end of a frame unless it fails with `Io`
- `exchanges_inStep` — the results of a connection are the replies of its frames
-/

namespace Amule.Ec

namespace Socket

variable {s s' : Socket}

/-- A wait that succeeds loses no bytes. -/
theorem unread_waitForReadyRead (h : s.waitForReadyRead = (true, s')) : s'.unread = s.unread := by
  cases hin : s.incoming with
  | nil => simp [waitForReadyRead, hin] at h
  | cons arrival rest =>
    cases arrival with
    | data chunk =>
      simp only [waitForReadyRead, hin, Prod.mk.injEq, true_and] at h
      simp [← h, unread, hin, Arrival.bytes]
    | timeout | closed => simp [waitForReadyRead, hin] at h

theorem unread_ready (h : s.ready = (true, s')) : s'.unread = s.unread := by
  by_cases hbuf : s.buffered = []
  · rw [ready_of_empty hbuf] at h
    exact unread_waitForReadyRead h
  · rw [ready_of_buffered hbuf, Prod.mk.injEq] at h
    rw [h.2]

/-- Nor does the event loop. -/
theorem unread_deliver (s : Socket) : s.deliver.unread = s.unread := by
  cases hin : s.incoming with
  | nil => rw [deliver, hin]
  | cons arrival rest =>
    cases arrival with
    | data chunk => simp [deliver, hin, unread, Arrival.bytes]
    | timeout | closed => rw [deliver, hin]

theorem unread_iterate_deliver (k : ℕ) (s : Socket) :
    (Socket.deliver^[k] s).unread = s.unread := by
  induction k with
  | zero => rfl
  | succ k ih => rw [Function.iterate_succ_apply', unread_deliver, ih]

end Socket

/-- The loop returns the next bytes, or fails. -/
theorem readLoop_ok {n : ℕ} {buf out : QByteArray} {s s' : Socket} (hle : buf.length ≤ n)
    (h : readLoop n buf s = (.ok out, s')) :
    out.length = n ∧ buf ++ s.unread = out ++ s'.unread := by
  fun_induction readLoop n buf s with
  | case1 buf s hlt s₁ hfalse => exact absurd h (by simp [ioError])
  | case2 buf s hlt s₁ htrue hclosed => exact absurd h (by simp [ioError])
  | case3 buf s hlt s₁ htrue hopen ih =>
    have hlen : (s₁.read (n - buf.length)).1.length ≤ n - buf.length := by
      rw [Socket.read, List.length_take]
      exact Nat.min_le_left _ _
    obtain ⟨hout, hbytes⟩ := ih (by rw [List.length_append]; omega) h
    refine ⟨hout, ?_⟩
    rw [← hbytes, List.append_assoc, Socket.unread_read, Socket.unread_ready htrue]
  | case4 buf s hge =>
    obtain ⟨rfl, rfl⟩ : buf = out ∧ s = s' := by simpa using h
    exact ⟨by omega, rfl⟩

theorem readLoop_error {n : ℕ} {buf : QByteArray} {s s' : Socket} {e : EcError}
    (h : readLoop n buf s = (.error e, s')) : e.kind = .io := by
  fun_induction readLoop n buf s with
  | case1 buf s hlt s₁ hfalse =>
    simp only [ioError, Prod.mk.injEq, Except.error.injEq] at h
    rw [← h.1]
  | case2 buf s hlt s₁ htrue hclosed =>
    simp only [ioError, Prod.mk.injEq, Except.error.injEq] at h
    rw [← h.1]
  | case3 buf s hlt s₁ htrue hopen ih => exact ih h
  | case4 buf s hge => exact absurd h (by simp)

/-- The result is an error of the transport. -/
def isIo : Except EcError Packet → Bool
  | .error e => e.kind = .io
  | .ok _ => false

section

variable [Qt]

omit [Qt] in
/-- A field of a header says what its bytes are. -/
theorem toBytes_field {field : QByteArray} (h : field.length = 4) :
    BigEndian.toBytes 4 (UInt32.ofNat (BigEndian.ofBytes field)).toNat = field := by
  have hlt := BigEndian.ofBytes_lt field
  rw [h] at hlt
  rw [UInt32.toNat_ofNat_of_lt' hlt, ← h, BigEndian.toBytes_ofBytes]

omit [Qt] in
/-- Eight bytes and as many more as they say are a frame. -/
theorem bytes_of_header {header payload : QByteArray} (hheader : header.length = headerSize)
    (hpayload : payload.length =
      (UInt32.ofNat (BigEndian.ofBytes ((header.drop 4).take 4))).toNat) :
    BigEndian.toBytes 4 (UInt32.ofNat (BigEndian.ofBytes (header.take 4))).toNat ++
      BigEndian.toBytes 4 payload.length = header := by
  have hsize : headerSize = 8 := rfl
  have hflags : (header.take 4).length = 4 := by
    rw [List.length_take]
    omega
  have hrest : (header.drop 4).length = 4 := by
    rw [List.length_drop]
    omega
  have hlength : (header.drop 4).take 4 = header.drop 4 := List.take_of_length_le hrest.le
  rw [hpayload, hlength, toBytes_field hflags, toBytes_field hrest, List.take_append_drop]

/-- Unless it fails with `Io`, a read takes one frame and returns its reply. -/
theorem readPacket_boundary {s s' : Socket} {result : Except EcError Packet}
    (h : readPacket s = (result, s')) (hio : isIo result = false) :
    ∃ f : Frame, result = f.reply ∧ s.unread = f.bytes ++ s'.unread := by
  rw [readPacket] at h
  split at h
  · next e s₁ hheader =>
    obtain rfl := (Prod.mk.inj h).1
    exact absurd (readLoop_error hheader) (of_decide_eq_false hio)
  · next header s₁ hheader =>
    obtain ⟨hheader, hbytes⟩ := readLoop_ok (Nat.zero_le _) hheader
    simp only at h
    split at h
    · next e s₂ hpayload =>
      obtain rfl := (Prod.mk.inj h).1
      exact absurd (readLoop_error hpayload) (of_decide_eq_false hio)
    · next payload s₂ hpayload =>
      obtain ⟨hpayload, hrest⟩ := readLoop_ok (Nat.zero_le _) hpayload
      have hsize : payload.length < 2 ^ 32 := hpayload ▸ UInt32.toNat_lt _
      -- the flags and the length in the header are the frame's
      let f : Frame := ⟨.ofNat (BigEndian.ofBytes (header.take 4)), payload, hsize⟩
      have hend : result = f.reply ∧ s₂ = s' := by
        rw [Frame.reply]
        split at h
        · next hzlib =>
          obtain ⟨hresult, hs'⟩ := Prod.mk.inj h
          exact ⟨hresult.symm.trans (if_pos hzlib).symm, hs'⟩
        · next hzlib =>
          rw [if_neg hzlib]
          cases hdecode : Packet.decodePayload payload <;>
            exact ⟨(Prod.mk.inj (hdecode ▸ h)).1.symm, (Prod.mk.inj (hdecode ▸ h)).2⟩
      refine ⟨f, hend.1, ?_⟩
      rw [List.nil_append] at hbytes hrest
      rw [hbytes, hrest, hend.2, Frame.bytes, bytes_of_header hheader hpayload, List.append_assoc]

/-- The exchanges on a connection until one fails with `Io`, with the event loop taking in some
    chunks before each. -/
def exchanges : List (ℕ × Packet) → Socket → List (Except EcError Packet) × Socket
  | [], s => ([], s)
  | (chunks, request) :: script, s =>
    match exchange request (Socket.deliver^[chunks] s) with
    | (result, s) =>
      if isIo result then ([result], s)
      else (result :: (exchanges script s).1, (exchanges script s).2)

/-- The results are the replies of the next frames, but for an error of kind `Io` at the end. -/
inductive InStep (s : Socket) : List (Except EcError Packet) → Socket → Prop
  | whole (frames : List Frame) {s' : Socket}
      (h : s.unread = frames.flatMap Frame.bytes ++ s'.unread) :
      InStep s (frames.map Frame.reply) s'
  | broken (frames : List Frame) {result : Except EcError Packet} (hio : isIo result = true)
      (h : frames.flatMap Frame.bytes <+: s.unread) (s' : Socket) :
      InStep s (frames.map Frame.reply ++ [result]) s'

omit [Qt] in
theorem unread_send (frame : QByteArray) (s : Socket) : (s.send frame).2.unread = s.unread := by
  rw [Socket.send]
  split <;> rfl

theorem exchange_boundary {request : Packet} {s s' : Socket} {result : Except EcError Packet}
    (h : exchange request s = (result, s')) (hio : isIo result = false) :
    ∃ f : Frame, result = f.reply ∧ s.unread = f.bytes ++ s'.unread := by
  have hsend := unread_send request.encode s
  rw [exchange] at h
  split at h
  · next message s₁ hout =>
    obtain rfl := (Prod.mk.inj h).1
    exact absurd hio (by simp [isIo, ioError])
  · next s₁ hout =>
    obtain ⟨f, hreply, hbytes⟩ := readPacket_boundary h hio
    rw [hout] at hsend
    exact ⟨f, hreply, hsend.symm.trans hbytes⟩

/-- Whatever the socket does, the requests are answered by the frames that the daemon sent, one
    each and in their order, until there is an error of kind `Io`. -/
theorem exchanges_inStep (script : List (ℕ × Packet)) (s : Socket) :
    InStep s (exchanges script s).1 (exchanges script s).2 := by
  induction script generalizing s with
  | nil => exact .whole [] rfl
  | cons step script ih =>
    obtain ⟨chunks, request⟩ := step
    have hdeliver := Socket.unread_iterate_deliver chunks s
    rw [exchanges]
    generalize hexchange : exchange request (Socket.deliver^[chunks] s) = outcome
    obtain ⟨result, s₁⟩ := outcome
    dsimp only
    -- after an error of kind `Io` the connection is not used any more
    split
    · next hio => exact .broken [] hio List.nil_prefix s₁
    · next hio =>
      obtain ⟨f, rfl, hbytes⟩ := exchange_boundary hexchange (eq_false_of_ne_true hio)
      rw [hdeliver] at hbytes
      have hrest := ih s₁
      generalize exchanges script s₁ = outcome at hrest
      obtain ⟨results, s'⟩ := outcome
      dsimp only at hrest ⊢
      cases hrest with
      | whole frames h =>
        refine .whole (f :: frames) ?_
        rw [hbytes, h, List.flatMap_cons, List.append_assoc]
      | broken frames hbroken h =>
        refine .broken (f :: frames) hbroken ?_ s'
        rw [hbytes, List.flatMap_cons]
        exact (List.prefix_append_right_inj _).mpr h

end

end Amule.Ec
