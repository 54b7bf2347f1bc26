import AmuleRemote.Ec.CodecRoundTrip
import AmuleRemote.Ec.World
import Mathlib.Logic.Function.Iterate

/-!
# Frames on the socket

`EcClient::readPacket` and `EcClient::readExactly` over a socket that hands out
its bytes in chunks. What the network does is a list of arrivals, one for every
wait: a chunk, a timeout or the end of the connection.

A socket delivers if every arrival is a non-empty chunk. Then the bytes it has
not handed out yet, buffered or still to arrive, are all that matters: reading
takes them from the front, however they are cut.

## Main results

- `readExactly_spec` — reading takes the next bytes and leaves the rest
- `readPacket_frames` — the calls of `readPacket` read the frames, one each
- `exchange_encode` — a request is answered by the packet the daemon encoded
-/

namespace Amule.Ec

inductive Arrival
  | data (chunk : QByteArray)
  | timeout
  | closed (errorString : QString)
deriving DecidableEq

structure Socket where
  /-- received and not read yet -/
  buffered : QByteArray := []
  incoming : List Arrival := []
  connected : Bool := true
  errorString : QString := []
  /-- the outcomes of sending a frame: the error string of a failed one -/
  sends : List (Option QString) := []

namespace Socket

/-- `waitForReadyRead`: the next arrival, a timeout if there is none. -/
def waitForReadyRead (s : Socket) : Bool × Socket :=
  match s.incoming with
  | [] => (false, s)
  | .data chunk :: rest => (true, { s with buffered := s.buffered ++ chunk, incoming := rest })
  | .timeout :: rest => (false, { s with incoming := rest })
  | .closed message :: rest =>
    (false, { s with incoming := rest, connected := false, errorString := message })

/-- `read(maxSize)` -/
def read (s : Socket) (maxSize : ℕ) : QByteArray × Socket :=
  (s.buffered.take maxSize, { s with buffered := s.buffered.drop maxSize })

/-- Bytes are there, or a wait brings some. -/
def ready (s : Socket) : Bool × Socket :=
  if s.buffered.isEmpty then s.waitForReadyRead else (true, s)

/-- `write`, and `waitForBytesWritten` until nothing is left to write. -/
def send (s : Socket) (_frame : QByteArray) : Option QString × Socket :=
  match s.sends with
  | [] => (none, s)
  | outcome :: rest => (outcome, { s with sends := rest })

/-- The event loop takes the next chunk in between two calls. -/
def deliver (s : Socket) : Socket :=
  match s.incoming with
  | .data chunk :: rest => { s with buffered := s.buffered ++ chunk, incoming := rest }
  | _ => s

theorem ready_of_buffered {s : Socket} (h : s.buffered ≠ []) : s.ready = (true, s) := by
  rw [ready, if_neg]
  rw [List.isEmpty_iff]
  exact h

theorem ready_of_empty {s : Socket} (h : s.buffered = []) : s.ready = s.waitForReadyRead := by
  rw [ready, if_pos]
  rw [List.isEmpty_iff]
  exact h

theorem incoming_waitForReadyRead {s s' : Socket} (h : s.waitForReadyRead = (true, s')) :
    s'.incoming.length < s.incoming.length := by
  cases hin : s.incoming with
  | nil => simp [waitForReadyRead, hin] at h
  | cons arrival rest =>
    cases arrival with
    | data chunk =>
      simp only [waitForReadyRead, hin, Prod.mk.injEq, true_and] at h
      simp [← h]
    | timeout => simp [waitForReadyRead, hin] at h
    | closed message => simp [waitForReadyRead, hin] at h

/-- A socket that is ready has waited for it, or had bytes before. -/
theorem ready_cases {s s' : Socket} (h : s.ready = (true, s')) :
    s'.incoming.length < s.incoming.length ∨ s' = s ∧ s.buffered ≠ [] := by
  by_cases hbuf : s.buffered = []
  · rw [ready_of_empty hbuf] at h
    exact .inl (incoming_waitForReadyRead h)
  · rw [ready_of_buffered hbuf, Prod.mk.injEq] at h
    exact .inr ⟨h.2.symm, hbuf⟩

end Socket

def ioError {α : Type} (message : QString) : Except EcError α := .error ⟨.io, message⟩

/-- The loop of `readExactly`, with the bytes read so far. -/
def readLoop (n : ℕ) (buf : QByteArray) (s : Socket) : Except EcError QByteArray × Socket :=
  if _hlen : buf.length < n then
    match _hready : s.ready with
    | (false, s) =>
      (ioError (if s.connected then .lit "timed out waiting for the daemon" else s.errorString), s)
    | (true, s) =>
      if (s.read (n - buf.length)).1.isEmpty && !s.connected then
        (ioError (.lit "connection closed by the daemon"), (s.read (n - buf.length)).2)
      else readLoop n (buf ++ (s.read (n - buf.length)).1) (s.read (n - buf.length)).2
  else (.ok buf, s)
termination_by (s.incoming.length, n - buf.length)
decreasing_by
  rcases Socket.ready_cases _hready with hwaited | ⟨rfl, hbuf⟩
  · exact .left _ _ hwaited
  · refine .right _ ?_
    have hpos := List.length_pos_of_ne_nil hbuf
    simp only [Socket.read, List.length_append, List.length_take]
    omega

def readExactly (n : ℕ) (s : Socket) : Except EcError QByteArray × Socket := readLoop n [] s

section

variable [Qt]

def readPacket (s : Socket) : Except EcError Packet × Socket :=
  match readExactly headerSize s with
  | (.error e, s) => (.error e, s)
  | (.ok header, s) =>
    let flags : UInt32 := .ofNat (BigEndian.ofBytes (header.take 4))
    let length : UInt32 := .ofNat (BigEndian.ofBytes ((header.drop 4).take 4))
    match readExactly length.toNat s with
    | (.error e, s) => (.error e, s)
    | (.ok payload, s) =>
      if flags &&& Flag.zlib ≠ 0 then
        (.error ⟨.remote, .lit "received a zlib-compressed reply (unsupported)"⟩, s)
      else
        match Packet.decodePayload payload with
        | .error message => (.error ⟨.remote, message⟩, s)
        | .ok packet => (.ok packet, s)

def exchange (request : Packet) (s : Socket) : Except EcError Packet × Socket :=
  match s.send request.encode with
  | (some message, s) => (ioError message, s)
  | (none, s) => readPacket s

end

/-! ## Delivery -/

/-- Every arrival is a chunk that is not empty. -/
def Socket.Delivers (s : Socket) : Prop :=
  ∀ arrival ∈ s.incoming, ∃ chunk, chunk ≠ [] ∧ arrival = .data chunk

def Arrival.bytes : Arrival → QByteArray
  | .data chunk => chunk
  | _ => []

/-- What is still to be read: the bytes buffered and those to come. -/
def Socket.unread (s : Socket) : QByteArray := s.buffered ++ s.incoming.flatMap Arrival.bytes

namespace Socket

variable {s : Socket}

theorem unread_read (n : ℕ) (s : Socket) :
    (s.read n).1 ++ (s.read n).2.unread = s.unread := by
  simp only [read, unread, ← List.append_assoc, List.take_append_drop]

theorem Delivers.read (h : s.Delivers) (n : ℕ) : (s.read n).2.Delivers := h

/-- With bytes still to come a socket that delivers gets ready, and nothing is lost. -/
theorem Delivers.ready (h : s.Delivers) (hunread : s.unread ≠ []) :
    ∃ s', s.ready = (true, s') ∧ s'.Delivers ∧ s'.unread = s.unread ∧ s'.buffered ≠ [] ∧
      s'.connected = s.connected := by
  by_cases hbuf : s.buffered = []
  · rw [ready_of_empty hbuf, waitForReadyRead]
    cases hin : s.incoming with
    | nil => simp [unread, hbuf, hin] at hunread
    | cons arrival rest =>
      rw [Delivers, hin] at h
      obtain ⟨chunk, hchunk, rfl⟩ := h arrival List.mem_cons_self
      refine ⟨_, rfl, fun a ha => h a (List.mem_cons_of_mem _ ha), ?_, ?_, rfl⟩
      · simp [unread, hin, Arrival.bytes]
      · simpa [hbuf] using hchunk
  · exact ⟨s, ready_of_buffered hbuf, h, rfl, hbuf, rfl⟩

/-- A chunk the event loop takes in between two calls changes nothing. -/
theorem Delivers.deliver (h : s.Delivers) :
    s.deliver.Delivers ∧ s.deliver.unread = s.unread := by
  cases hin : s.incoming with
  | nil =>
    rw [Socket.deliver, hin]
    exact ⟨h, rfl⟩
  | cons arrival rest =>
    rw [Delivers, hin] at h
    obtain ⟨chunk, -, rfl⟩ := h arrival List.mem_cons_self
    rw [Socket.deliver, hin]
    refine ⟨fun a ha => h a (List.mem_cons_of_mem _ ha), ?_⟩
    simp [unread, hin, Arrival.bytes]

theorem Delivers.iterate (h : s.Delivers) (k : ℕ) :
    (Socket.deliver^[k] s).Delivers ∧ (Socket.deliver^[k] s).unread = s.unread := by
  induction k with
  | zero => exact ⟨h, rfl⟩
  | succ k ih =>
    rw [Function.iterate_succ_apply']
    exact ⟨ih.1.deliver.1, ih.1.deliver.2.trans ih.2⟩

end Socket

/-- The loop collects bytes from the front until it has `n`. -/
theorem readLoop_spec (n : ℕ) (buf : QByteArray) (s : Socket) (hs : s.Delivers)
    (hle : buf.length ≤ n) (hn : n ≤ (buf ++ s.unread).length) :
    ∃ s', readLoop n buf s = (.ok ((buf ++ s.unread).take n), s') ∧ s'.Delivers ∧
      s'.unread = (buf ++ s.unread).drop n := by
  -- while bytes are missing some are unread, so the wait succeeds and the read is not empty
  have hready {buf : QByteArray} {s : Socket} (hs : s.Delivers)
      (hn : n ≤ (buf ++ s.unread).length) (hlt : buf.length < n) :
      ∃ s', s.ready = (true, s') ∧ s'.Delivers ∧ s'.unread = s.unread ∧ s'.buffered ≠ [] := by
    have hunread : s.unread ≠ [] := by
      intro hnil
      rw [hnil, List.append_nil] at hn
      omega
    obtain ⟨s', hs', hdelivers, hsame, hbuf, -⟩ := hs.ready hunread
    exact ⟨s', hs', hdelivers, hsame, hbuf⟩
  fun_induction readLoop n buf s with
  | case1 buf s hlt s₁ hfalse =>
    obtain ⟨s', hs', -⟩ := hready hs hn hlt
    exact absurd (hfalse.symm.trans hs') (by simp)
  | case2 buf s hlt s₁ htrue hclosed =>
    obtain ⟨s', hs', -, -, hbuf⟩ := hready hs hn hlt
    obtain rfl : s₁ = s' := congrArg Prod.snd (htrue.symm.trans hs')
    have hempty := (Bool.and_eq_true _ _ ▸ hclosed).1
    rw [List.isEmpty_iff, Socket.read, List.take_eq_nil_iff] at hempty
    cases hempty with
    | inl hzero => omega
    | inr hnil => exact absurd hnil hbuf
  | case3 buf s hlt s₁ htrue hopen ih =>
    obtain ⟨s', hs', hdelivers, hsame, hbuf⟩ := hready hs hn hlt
    obtain rfl : s₁ = s' := congrArg Prod.snd (htrue.symm.trans hs')
    have hsplit := Socket.unread_read (n - buf.length) s₁
    have hlen : (s₁.read (n - buf.length)).1.length ≤ n - buf.length := by
      rw [Socket.read, List.length_take]
      omega
    rw [List.append_assoc, hsplit, hsame] at ih
    exact ih (hdelivers.read _) (by rw [List.length_append]; omega) hn
  | case4 buf s hge =>
    have hlen : buf.length = n := by omega
    refine ⟨s, ?_, hs, ?_⟩
    · rw [← hlen, List.take_left]
    · rw [← hlen, List.drop_left]

/-- Reading takes the next `n` bytes and leaves the rest, however they are cut. -/
theorem readExactly_spec (n : ℕ) (s : Socket) (hs : s.Delivers) (hn : n ≤ s.unread.length) :
    ∃ s', readExactly n s = (.ok (s.unread.take n), s') ∧ s'.Delivers ∧
      s'.unread = s.unread.drop n :=
  readLoop_spec n [] s hs (Nat.zero_le n) hn

/-! ## Frames -/

/-- A frame whose length field can say how long its payload is. -/
structure Frame where
  flags : UInt32
  payload : QByteArray
  size_lt : payload.length < 2 ^ 32

namespace Frame

/-- A frame on the wire. -/
def bytes (f : Frame) : QByteArray :=
  BigEndian.toBytes 4 f.flags.toNat ++ BigEndian.toBytes 4 f.payload.length ++ f.payload

variable [Qt]

/-- What reading a frame returns: the decode of its payload, or an error of kind `Remote`
    when it is compressed or malformed. -/
def reply (f : Frame) : Except EcError Packet :=
  if f.flags &&& Flag.zlib ≠ 0 then
    .error ⟨.remote, .lit "received a zlib-compressed reply (unsupported)"⟩
  else (Packet.decodePayload f.payload).mapError fun message => ⟨.remote, message⟩

/-- The frames of packets carry them. -/
theorem bytes_encode (p : Packet) (hsize : p.payload.length < 2 ^ 32) :
    p.encode = bytes ⟨Flag.base, p.payload, hsize⟩ := by
  have hcast : (UInt32.ofNat p.payload.length).toNat = p.payload.length := by
    rw [UInt32.toNat_ofNat']
    omega
  simp only [Packet.encode, appendBE, List.nil_append, hcast, bytes]

end Frame

section

variable [Qt]

/-- One call reads one frame, whatever it carries, and leaves the rest. -/
theorem readPacket_spec (f : Frame) (rest : QByteArray) (s : Socket) (hs : s.Delivers)
    (hunread : s.unread = f.bytes ++ rest) :
    ∃ s', readPacket s = (f.reply, s') ∧ s'.Delivers ∧ s'.unread = rest := by
  have hflags := BigEndian.length_toBytes 4 f.flags.toNat
  have hlength := BigEndian.length_toBytes 4 f.payload.length
  have hsize : headerSize = 8 := rfl
  rw [Frame.bytes, List.append_assoc] at hunread
  obtain ⟨s₁, hheader, hs₁, hunread₁⟩ := readExactly_spec headerSize s hs (by
    simp only [hunread, List.length_append, hflags, hlength]
    omega)
  rw [hunread, List.take_left' (by simp [hflags, hlength])] at hheader
  rw [hunread, List.drop_left' (by simp [hflags, hlength])] at hunread₁
  obtain ⟨s₂, hpayload, hs₂, hunread₂⟩ := readExactly_spec f.payload.length s₁ hs₁ (by
    simp only [hunread₁, List.length_append]
    omega)
  rw [hunread₁, List.take_left] at hpayload
  rw [hunread₁, List.drop_left] at hunread₂
  refine ⟨s₂, ?_, hs₂, hunread₂⟩
  have hflagsOf : (UInt32.ofNat (BigEndian.ofBytes (BigEndian.toBytes 4 f.flags.toNat))) =
      f.flags := by
    rw [BigEndian.ofBytes_toBytes_of_lt f.flags.toNat_lt, UInt32.ofNat_toNat]
  have hlengthOf :
      (UInt32.ofNat (BigEndian.ofBytes (BigEndian.toBytes 4 f.payload.length))).toNat =
        f.payload.length := by
    rw [BigEndian.ofBytes_toBytes_of_lt f.size_lt, UInt32.toNat_ofNat']
    have := f.size_lt
    omega
  simp only [readPacket, hheader, List.take_left' hflags, List.drop_left' hflags,
    List.take_of_length_le hlength.le, hflagsOf, hlengthOf, hpayload, Frame.reply]
  split
  · rfl
  · cases Packet.decodePayload f.payload with
    | error message => rfl
    | ok packet => rfl

/-- The socket after `i` calls, with the event loop taking in `chunks k` chunks before
    call `k`. -/
def afterReads (chunks : ℕ → ℕ) (s : Socket) : ℕ → Socket
  | 0 => Socket.deliver^[chunks 0] s
  | i + 1 => Socket.deliver^[chunks (i + 1)] (readPacket (afterReads chunks s i)).2

/-- After `i` calls the first `i` frames are read, and nothing else. -/
theorem afterReads_spec (frames : List Frame) (s : Socket) (hs : s.Delivers)
    (hunread : s.unread = frames.flatMap Frame.bytes) (chunks : ℕ → ℕ) (i : ℕ)
    (hi : i ≤ frames.length) : (afterReads chunks s i).Delivers ∧
      (afterReads chunks s i).unread = (frames.drop i).flatMap Frame.bytes := by
  induction i with
  | zero =>
    obtain ⟨hdelivers, hsame⟩ := hs.iterate (chunks 0)
    exact ⟨hdelivers, hsame.trans hunread⟩
  | succ i ih =>
    obtain ⟨hs, hbefore⟩ := ih (by omega)
    rw [List.drop_eq_getElem_cons hi, List.flatMap_cons] at hbefore
    obtain ⟨s', hread, hs', hafter⟩ := readPacket_spec frames[i] _ _ hs hbefore
    obtain ⟨hdelivers, hsame⟩ := hs'.iterate (chunks (i + 1))
    rw [afterReads, hread]
    exact ⟨hdelivers, hsame.trans hafter⟩

/-- However the bytes of the frames are cut into chunks, the `i`-th call returns the reply
    of the `i`-th frame and takes its bytes, no more and no less. -/
theorem readPacket_frames (frames : List Frame) (s : Socket) (hs : s.Delivers)
    (hunread : s.unread = frames.flatMap Frame.bytes) (chunks : ℕ → ℕ) (i : ℕ)
    (hi : i < frames.length) :
    (readPacket (afterReads chunks s i)).1 = frames[i].reply ∧
      (afterReads chunks s i).unread =
        frames[i].bytes ++ (readPacket (afterReads chunks s i)).2.unread ∧
      (readPacket (afterReads chunks s i)).2.unread =
        (frames.drop (i + 1)).flatMap Frame.bytes := by
  obtain ⟨hdelivers, hbefore⟩ := afterReads_spec frames s hs hunread chunks i hi.le
  rw [List.drop_eq_getElem_cons hi, List.flatMap_cons] at hbefore
  obtain ⟨s', hread, -, hafter⟩ := readPacket_spec frames[i] _ _ hdelivers hbefore
  rw [hread, hafter]
  exact ⟨rfl, hbefore, rfl⟩

end

/-- A fresh connection whose bytes come in these chunks. -/
def Socket.ofChunks (chunks : List QByteArray) : Socket := { incoming := chunks.map .data }

theorem Socket.delivers_ofChunks {chunks : List QByteArray} (h : ∀ chunk ∈ chunks, chunk ≠ []) :
    (Socket.ofChunks chunks).Delivers := by
  intro arrival ha
  obtain ⟨chunk, hchunk, rfl⟩ := List.mem_map.mp ha
  exact ⟨chunk, h chunk hchunk, rfl⟩

/-- A compressed frame, a malformed one and a reply, cut inside headers and payloads. -/
def sampleChunks : List QByteArray := [
  [0, 0, 0, 1, 0, 0, 0, 3, 0x0C], [0, 0, 0, 0], [0, 0x20, 0, 0, 0, 1],
  [0x0C, 0, 0, 0, 0x20, 0, 0, 0, 3, Op.noop, 0], [0]]

def sampleFrames : List Frame := [
  ⟨Flag.zlib, [0x0C, 0, 0], by decide⟩, ⟨Flag.base, [0x0C], by decide⟩,
  ⟨Flag.base, [Op.noop, 0, 0], by decide⟩]

/-- The third call still reads the third frame. -/
theorem readPacket_frames_sampleChunks :
    letI := sampleQt
    (readPacket (afterReads (fun _ => 1) (Socket.ofChunks sampleChunks) 2)).1 =
      .ok ⟨Op.noop, []⟩ :=
  letI := sampleQt
  (readPacket_frames sampleFrames (Socket.ofChunks sampleChunks)
    (Socket.delivers_ofChunks (by decide)) (by decide) (fun _ => 1) 2 (by decide)).1.trans rfl

/-- A request that is sent gets the reply of the next frame. -/
theorem exchange_spec [Qt] (request : Packet) (f : Frame) (rest : QByteArray) (s : Socket)
    (hs : s.Delivers) (hsends : ∀ outcome ∈ s.sends, outcome = none)
    (hunread : s.unread = f.bytes ++ rest) :
    ∃ s', exchange request s = (f.reply, s') ∧ s'.Delivers ∧ s'.unread = rest := by
  rw [exchange, Socket.send]
  cases hout : s.sends with
  | nil => exact readPacket_spec f rest s hs hunread
  | cons outcome others =>
    obtain rfl := hsends outcome (hout ▸ List.mem_cons_self)
    exact readPacket_spec f rest { s with sends := others } hs hunread

/-- What the daemon encodes is what the exchange returns, and later replies are untouched. -/
theorem exchange_encode [Qt] [LawfulQtUtf8] (request : Packet) {reply : Packet}
    (hreply : reply.Encodable) (rest : QByteArray) (s : Socket) (hs : s.Delivers)
    (hsends : ∀ outcome ∈ s.sends, outcome = none) (hunread : s.unread = reply.encode ++ rest) :
    ∃ s', exchange request s = (.ok reply, s') ∧ s'.Delivers ∧ s'.unread = rest := by
  rw [Frame.bytes_encode reply hreply.size] at hunread
  obtain ⟨s', hexchange, hs', hrest⟩ := exchange_spec request _ rest s hs hsends hunread
  refine ⟨s', ?_, hs', hrest⟩
  have hplain : ¬Flag.base &&& Flag.zlib ≠ 0 := by decide
  rw [hexchange, Frame.reply, if_neg hplain, Packet.decodePayload_payload reply hreply]
  rfl

end Amule.Ec
