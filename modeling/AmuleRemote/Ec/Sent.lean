import AmuleRemote.Ec.Frames
import AmuleRemote.Ec.Resources
import AmuleRemote.Ec.SlotCourse

/-!
# The requests on the wire

Whatever the worker sends can be read: if the texts that the user gives it are
portable and not enormous, the frames of the requests of a connection, back to back
and in chunks of any size, are read one by one as these very requests.

No request outgrows the length field of its frame, because a text in UTF-8 takes at
most three bytes for each of its code units, and everything else is small.

## Main results

- `Packet.Modest.encodable` — the wire format can carry a packet of small parts
- `requests_readBack` — what is sent on a connection is what is read at its other end
-/

namespace Amule

namespace Ec

/-! ## Packets of small parts -/

namespace TagValue

def texts : TagValue → List QString
  | .string s => [s]
  | _ => []

/-- A number, a text, a hash or an address. -/
def plain : TagValue → Bool
  | .bytes _ | .double _ => false
  | _ => true

end TagValue

/-- The code units of texts. -/
def units (texts : List QString) : ℕ := (texts.map List.length).sum

theorem units_append (a b : List QString) : units (a ++ b) = units a + units b := by
  rw [units, List.map_append, List.sum_append]
  rfl

namespace Tag

mutual

/-- The texts of a tag, from the top down. -/
def texts : Tag → List QString
  | ⟨_, value, children⟩ => value.texts ++ textsList children

def textsList : List Tag → List QString
  | [] => []
  | t :: ts => texts t ++ textsList ts

end

mutual

/-- The values are plain, and names and counts fit their fields. -/
def sound : Tag → Bool
  | ⟨name, value, children⟩ =>
    name < 0x8000 && children.length ≤ 65535 && value.plain && soundList children

def soundList : List Tag → Bool
  | [] => true
  | t :: ts => sound t && soundList ts

end

theorem length_le_nodesList : (ts : List Tag) → ts.length ≤ nodesList ts
  | [] => Nat.le_refl 0
  | ⟨_, _, _⟩ :: ts => by
    have hrest := length_le_nodesList ts
    rw [List.length_cons, nodesList, nodes]
    omega

end Tag

theorem length_encodeInt_le (v : UInt64) : (encodeInt v).2.length ≤ 8 := by
  rw [encodeInt]
  split_ifs <;> simp [appendBE]

theorem TagValue.faithful_of_plain {v : TagValue} (h : v.plain = true)
    (hportable : ∀ text ∈ v.texts, text.Portable) : v.Faithful := by
  cases v with
  | bytes b | double d => exact absurd h nofun
  | string s => exact hportable s List.mem_cons_self
  | _ => trivial

theorem length_encodeValue_le [Qt] [LawfulQtText] {v : TagValue} (h : v.plain = true)
    (hportable : ∀ text ∈ v.texts, text.Portable) :
    (encodeValue v).2.length ≤ 16 + 3 * units v.texts := by
  cases v with
  | bytes b | double d => exact absurd h nofun
  | empty => exact Nat.zero_le _
  | int i => exact (length_encodeInt_le i).trans (Nat.le_add_left 8 8)
  | hash hash => exact hash.property.le
  | ipv4 addr =>
    rw [encodeValue, appendBE, List.length_append, BigEndian.length_toBytes, addr.ip.property]
    exact Nat.le_add_left 6 10
  | string s =>
    have hs : s.Portable := hportable s List.mem_cons_self
    have hlen := Utf8.length_encode_le hs.1
    have hunits : units (TagValue.string s).texts = s.length := rfl
    rw [encodeValue, LawfulQtText.toUtf8_eq s hs.1, List.length_append, List.length_singleton,
      hunits]
    omega

namespace Tag

theorem sound_iff {name : UInt16} {value : TagValue} {children : List Tag} :
    (Tag.mk name value children).sound = true ↔ (name < 0x8000 ∧ children.length ≤ 65535) ∧
      value.plain = true ∧ soundList children = true := by
  rw [sound, Bool.and_eq_true, Bool.and_eq_true, Bool.and_eq_true, decide_eq_true_eq,
    decide_eq_true_eq, and_assoc]

mutual

theorem encodable_of_sound : (t : Tag) → t.sound = true → (∀ text ∈ t.texts, text.Portable) →
    t.Forall Encodable
  | ⟨_, _, children⟩, hsound, hportable => by
    obtain ⟨⟨hname, hcount⟩, hplain, hchildren⟩ := sound_iff.mp hsound
    obtain ⟨hvalue, hkids⟩ := List.forall_mem_append.mp hportable
    exact ⟨⟨hname, hcount, TagValue.faithful_of_plain hplain hvalue⟩,
      encodable_of_soundList children hchildren hkids⟩

theorem encodable_of_soundList : (ts : List Tag) → soundList ts = true →
    (∀ text ∈ textsList ts, text.Portable) → ForallList Encodable ts
  | [], _, _ => trivial
  | t :: ts, hsound, hportable => by
    obtain ⟨ht, hts⟩ := Bool.and_eq_true _ _ ▸ hsound
    obtain ⟨hfirst, hrest⟩ := List.forall_mem_append.mp hportable
    exact ⟨encodable_of_sound t ht hfirst, encodable_of_soundList ts hts hrest⟩

end

mutual

/-- What is not text is small. -/
theorem wireLen_le [Qt] [LawfulQtText] : (t : Tag) → t.sound = true →
    (∀ text ∈ t.texts, text.Portable) → wireLen t ≤ 25 * t.nodes + 3 * units t.texts
  | ⟨_, _, children⟩, hsound, hportable => by
    obtain ⟨-, hplain, hchildren⟩ := sound_iff.mp hsound
    obtain ⟨hvalue, hkids⟩ := List.forall_mem_append.mp hportable
    have hdata := length_encodeValue_le hplain hvalue
    have hrest := wireLens_le children hchildren hkids
    simp only [wireLen, bodyLen, nodes, texts, units_append]
    split_ifs <;> omega

theorem wireLens_le [Qt] [LawfulQtText] : (ts : List Tag) → soundList ts = true →
    (∀ text ∈ textsList ts, text.Portable) →
      wireLens ts ≤ 25 * nodesList ts + 3 * units (textsList ts)
  | [], _, _ => Nat.le_refl 0
  | t :: ts, hsound, hportable => by
    obtain ⟨ht, hts⟩ := Bool.and_eq_true _ _ ▸ hsound
    obtain ⟨hfirst, hrest⟩ := List.forall_mem_append.mp hportable
    have hlen := wireLen_le t ht hfirst
    have hlens := wireLens_le ts hts hrest
    simp only [wireLen] at hlen
    simp only [wireLens, nodesList, textsList, units_append]
    omega

end

end Tag

/-- The wire format can carry the packet for what the tags are, and for its texts. -/
structure Packet.Modest (p : Packet) : Prop where
  sound : Tag.soundList p.tags = true
  nodes : Tag.nodesList p.tags ≤ 1000
  portable : ∀ text ∈ Tag.textsList p.tags, text.Portable
  size : units (Tag.textsList p.tags) ≤ 2 ^ 30

instance decidableModest (p : Packet) : Decidable p.Modest :=
  decidable_of_iff (Tag.soundList p.tags = true ∧ Tag.nodesList p.tags ≤ 1000 ∧
      (∀ text ∈ Tag.textsList p.tags, text.Portable) ∧ units (Tag.textsList p.tags) ≤ 2 ^ 30)
    ⟨fun ⟨hsound, hnodes, hportable, hsize⟩ => ⟨hsound, hnodes, hportable, hsize⟩,
      fun h => ⟨h.sound, h.nodes, h.portable, h.size⟩⟩

theorem Packet.Modest.encodable [Qt] [LawfulQtText] {p : Packet} (h : p.Modest) :
    p.Encodable where
  count := by
    have hlength := Tag.length_le_nodesList p.tags
    have hnodes := h.nodes
    omega
  nodes := Tag.encodable_of_soundList p.tags h.sound h.portable
  size := by
    have hwire := Tag.wireLens_le p.tags h.sound h.portable
    have hnodes := h.nodes
    have hsize := h.size
    rw [Packet.payload_eq, List.length_cons, List.length_append, BigEndian.length_toBytes,
      length_tagsBytes]
    omega

end Ec

open Ec

/-! ## The requests of a call -/

/-- The texts in the request of a slot are portable, and of at most a billion code units. -/
def Slot.Sendable (slot : Slot) : Prop :=
  ∀ request, slot.request = some request →
    (∀ text ∈ Tag.textsList request.tags, text.Portable) ∧
      units (Tag.textsList request.tags) ≤ 2 ^ 30

theorem Slot.request_sound {slot : Slot} {request : Packet} (h : slot.request = some request) :
    Tag.soundList request.tags = true ∧ Tag.nodesList request.tags ≤ 1000 := by
  cases slot with
  | connectToDaemon | disconnectFromDaemon | shutdown | timeout => cases h
  | startSearch params =>
    obtain rfl := Option.some.inj h
    rw [searchRequest]
    constructor
    · split_ifs <;> rfl
    · split_ifs <;> simp [Tag.nodesList, Tag.nodes, Tag.integer, Tag.string, Tag.withChildren]
  | applyPrefs prefs =>
    obtain rfl := Option.some.inj h
    constructor
    · rfl
    · simp [Tag.nodesList, Tag.nodes, setPrefsRequest, generalTags, connectionTags, fileTags,
        directoryTags, serverTags, securityTags, messageTags, webserverTags, onlinesigTags,
        tweakTags, kadTags, flagTag, intTag, strTag, Tag.empty, Tag.integer, Tag.string,
        Tag.withChildren]
  | _ =>
    obtain rfl := Option.some.inj h
    refine ⟨rfl, ?_⟩
    simp [Tag.nodesList, Tag.nodes, Tag.hash, Tag.integer, Tag.string, Tag.withChildren,
      prefsRequest]

theorem Slot.Sendable.modest {slot : Slot} (h : slot.Sendable) {request : Packet}
    (hrequest : slot.request = some request) : request.Modest := by
  obtain ⟨hsound, hnodes⟩ := Slot.request_sound hrequest
  obtain ⟨hportable, hsize⟩ := h request hrequest
  exact ⟨hsound, hnodes, hportable, hsize⟩

/-- The requests that the worker sends whatever slot is called. -/
structure OwnRequests (P : Packet → Prop) : Prop where
  snapshot : ∀ q ∈ snapshotRequests, P q
  poll : ∀ q ∈ pollRequests, P q
  prefs : P prefsRequest
  auth : P EcClient.authRequest
  passwd : ∀ [Qt] (md5 : QString) (salt : UInt64), P (EcClient.passwdRequest md5 salt)

theorem ownRequests_modest : OwnRequests Packet.Modest where
  snapshot := by decide
  poll := by decide
  prefs := by decide
  auth := by decide
  passwd md5 salt :=
    ⟨rfl, Nat.le_of_ble_eq_true rfl, List.forall_mem_nil _, Nat.zero_le _⟩

/-- The requests that events send. -/
def requests (events : List Event) : List Packet :=
  events.filterMap fun
    | .exchange _ request _ => some request
    | .emit _ _ => none

section

variable {client : EcClient} {worker worker' : EcWorker} {events : List Event}
  {P : Packet → Prop}

@[simp] theorem requests_append (a b : List Event) : requests (a ++ b) = requests a ++ requests b :=
  List.filterMap_append

@[simp] theorem requests_cons_exchange (client : EcClient) (request : Packet)
    (result : Except EcError Packet) (events : List Event) :
    requests (.exchange client request result :: events) = request :: requests events := rfl

@[simp] theorem requests_cons_emit (held : Option EcClient) (signal : Signal)
    (events : List Event) : requests (.emit held signal :: events) = requests events := rfl

@[simp] theorem requests_emits (held : Option EcClient) (signals : List Signal) :
    requests (signals.map (.emit held)) = [] := by
  simp [requests]

@[simp] theorem requests_tells (signals : List Signal) : requests (client.tells signals) = [] :=
  requests_emits (some client) signals

@[simp] theorem requests_rounds (rounds : List Round) :
    requests (client.rounds rounds) = rounds.map Prod.fst := by
  rw [requests, EcClient.rounds, List.filterMap_map]
  exact congrFun List.filterMap_eq_map rounds

@[simp] theorem requests_farewell (reason : QString) (status : ConnStatus) :
    requests (worker.farewell reason status) = [] := by
  rw [EcWorker.farewell]
  split <;> rfl

@[simp] theorem requests_answer (e : EcError) : requests (worker.answer e) = [] := by
  rw [EcWorker.answer]
  split
  · exact requests_farewell e.message .error
  · rfl

@[simp] theorem requests_failure (request : Packet) (e : EcError) :
    requests (failure client worker request e) = [request] := by
  rw [failure, requests_cons_exchange, requests_cons_emit, requests_farewell]

@[simp] theorem requests_snapshot (s : Snapshot) :
    requests (s.events client worker) = snapshotRequests := by
  rw [Snapshot.events, requests_append, requests_tells, requests_rounds, List.append_nil]
  rfl

theorem CutShort.requests {script : List Packet} {rounds : List Round} {request : Packet}
    {e : EcError} (h : CutShort script rounds request) (hscript : ∀ q ∈ script, P q) :
    ∀ q ∈ Amule.requests (client.rounds rounds ++ failure client worker request e), P q := by
  rw [requests_append, requests_rounds, requests_failure]
  exact fun q hq => hscript q (h.subset hq)

theorem Refreshing.requests (h : Refreshing client worker events worker')
    (hown : OwnRequests P) : ∀ q ∈ Amule.requests events, P q := by
  cases h with
  | lost cut => exact cut.requests hown.snapshot
  | told s idle =>
    rw [requests_snapshot]
    exact hown.snapshot
  | lostPolling s on cut =>
    rw [requests_append, requests_snapshot]
    exact List.forall_mem_append.mpr ⟨hown.snapshot, cut.requests hown.poll⟩
  | polled s on progress results searching at100 at100Timer =>
    rw [requests_append, requests_snapshot, requests_append, requests_tells, requests_rounds,
      List.append_nil]
    exact List.forall_mem_append.mpr ⟨hown.snapshot, hown.poll⟩

theorem Handshake.requests [Qt] {id : ℕ} {md5 : QString} {result : Except EcError EcClient}
    (h : Handshake id md5 events result) (hown : OwnRequests P) :
    ∀ q ∈ Amule.requests events, P q := by
  cases h with
  | unreachable => exact List.forall_mem_nil _
  | plain | unsalted => exact List.forall_mem_singleton.mpr hown.auth
  | salted =>
    exact List.forall_mem_cons.mpr ⟨hown.auth, List.forall_mem_singleton.mpr (hown.passwd _ _)⟩

/-- A call sends what the worker sends on its own, and the request of its slot. -/
theorem Slot.Course.requests [Qt] {slot : Slot} {next next' : ℕ}
    (h : slot.Course worker next events worker' next') (hown : OwnRequests P)
    (hslot : ∀ request, slot.request = some request → P request) :
    ∀ q ∈ Amule.requests events, P q := by
  have hnil : ∀ q ∈ ([] : List Packet), P q := List.forall_mem_nil _
  cases h with
  | ignored unheld needs other =>
    rw [requests_append, requests_emits]
    exact hnil
  | ignoredSearch unheld => exact hnil
  | failed held sends fails =>
    simp only [requests_append, requests_tells, requests_cons_exchange, requests_answer,
      List.append_nil, List.nil_append]
    exact List.forall_mem_singleton.mpr (hslot _ sends)
  | done held order other accepts refresh =>
    rw [requests_append, requests_tells, List.nil_append, requests_cons_exchange]
    refine List.forall_mem_cons.mpr ⟨hslot _ ?_, refresh.requests hown⟩
    cases slot with
    | fetchPrefs => cases order
    | _ => exact order
  | applied held reply fetched =>
    simp only [requests_cons_exchange, requests_cons_emit, requests_tells]
    exact List.forall_mem_cons.mpr ⟨hslot _ rfl, List.forall_mem_singleton.mpr hown.prefs⟩
  | fetched held reply => exact List.forall_mem_singleton.mpr hown.prefs
  | refreshed held active refresh => exact refresh.requests hown
  | idle | shutdown => exact hnil
  | disconnected =>
    rw [requests_append, requests_farewell]
    exact hnil
  | refused handshake =>
    rw [requests_append, requests_append]
    exact List.forall_mem_append.mpr
      ⟨List.forall_mem_append.mpr ⟨hnil, handshake.requests hown⟩, hnil⟩
  | connected fetched handshake refresh =>
    simp only [requests_append, requests_tells, requests_cons_exchange, List.nil_append,
      List.forall_mem_append, List.forall_mem_cons]
    exact ⟨⟨hnil, handshake.requests hown⟩, ⟨hown.prefs, hnil⟩, refresh.requests hown⟩

end

/-! ## The requests of a run -/

/-- The requests that the worker sends can all be carried by the wire format. -/
theorem requests_run [Qt] (s : Session) {calls : List Call}
    (h : ∀ c ∈ calls, c.slot.Sendable) (hs : ∀ q ∈ requests s.trace, q.Modest) :
    ∀ q ∈ requests (calls.foldl Session.step s).trace, q.Modest := by
  induction calls generalizing s with
  | nil => exact hs
  | cons c calls ih =>
    obtain ⟨hc, hcalls⟩ := List.forall_mem_cons.mp h
    obtain ⟨events, htrace, hcourse⟩ := s.step_course c
    refine ih (s.step c) hcalls ?_
    rw [htrace, requests_append]
    exact List.forall_mem_append.mpr
      ⟨hs, hcourse.requests ownRequests_modest fun _ hrequest => hc.modest hrequest⟩

/-- The event is an exchange on connection `id`. -/
def Event.on (id : ℕ) : Event → Bool
  | .exchange client _ _ => client.id = id
  | .emit _ _ => false

/-- The requests sent on connection `id`. -/
def requestsOn (id : ℕ) (trace : List Event) : List Packet := requests (trace.filter (Event.on id))

theorem requestsOn_subset (id : ℕ) (trace : List Event) : requestsOn id trace ⊆ requests trace :=
  (List.filter_sublist.filterMap _).subset

/-- Packets that were written back to back are read one by one. -/
theorem readPacket_packets [Qt] [LawfulQtUtf8] {packets : List Packet}
    (h : ∀ p ∈ packets, p.Encodable) (s : Socket) (hs : s.Delivers)
    (hunread : s.unread = packets.flatMap Packet.encode) (chunks : ℕ → ℕ) {i : ℕ}
    (hi : i < packets.length) : (readPacket (afterReads chunks s i)).1 = .ok packets[i] := by
  -- a frame carries a proof that its payload fits, so each is made from the packet's own
  let frames : List Frame := packets.attach.map fun p =>
    ⟨Flag.base, p.val.payload, (h p.val p.property).size⟩
  have hlength : frames.length = packets.length := by
    rw [List.length_map, List.length_attach]
  have hbytes : frames.flatMap Frame.bytes = packets.flatMap Packet.encode := by
    rw [List.flatMap_map]
    simp only [← Frame.bytes_encode]
    rw [← List.flatMap_map Subtype.val Packet.encode, List.attach_map_subtype_val]
  obtain ⟨hdelivers, hbefore⟩ :=
    afterReads_spec frames s hs (hunread.trans hbytes.symm) chunks i (hlength ▸ hi.le)
  rw [List.drop_eq_getElem_cons (hlength ▸ hi), List.flatMap_cons] at hbefore
  obtain ⟨s', hread, -, -⟩ := readPacket_spec frames[i] _ _ hdelivers hbefore
  -- it is read as it was written, without compression
  have hplain : ¬Flag.base &&& Flag.zlib ≠ 0 := by decide
  have hframe : frames[i] = ⟨Flag.base, packets[i].payload, (h _ (List.getElem_mem hi)).size⟩ := by
    simp [frames]
  rw [hread, hframe, Frame.reply, if_neg hplain,
    Packet.decodePayload_payload _ (h _ (List.getElem_mem hi))]
  rfl

/-- The requests of a connection, written as frames one behind the other, are what is read from
    its other end, however the bytes are cut. -/
theorem requests_readBack [Qt] [LawfulQtUtf8] [LawfulQtText] {calls : List Call}
    (h : ∀ c ∈ calls, c.slot.Sendable) (id : ℕ) (s : Socket) (hs : s.Delivers)
    (hunread : s.unread =
      (requestsOn id (calls.foldl Session.step {}).trace).flatMap Packet.encode)
    (chunks : ℕ → ℕ) :
    (List.range (requestsOn id (calls.foldl Session.step {}).trace).length).map
        (fun i => (readPacket (afterReads chunks s i)).1) =
      (requestsOn id (calls.foldl Session.step {}).trace).map .ok := by
  have hmodest := requests_run {} h (List.forall_mem_nil _)
  have hencodable : ∀ p ∈ requestsOn id (calls.foldl Session.step {}).trace, p.Encodable :=
    fun p hp => (hmodest p (requestsOn_subset id _ hp)).encodable
  refine List.ext_getElem (by simp) fun i hi _ => ?_
  rw [List.length_map, List.length_range] at hi
  rw [List.getElem_map, List.getElem_range, List.getElem_map]
  exact readPacket_packets hencodable s hs hunread chunks hi

/-- A socket that gets its bytes one at a time. -/
def Ec.Socket.dripping (bytes : QByteArray) : Socket := Socket.ofChunks (bytes.map fun b => [b])

theorem Ec.Socket.unread_dripping (bytes : QByteArray) :
    (Socket.dripping bytes).unread = bytes := by
  induction bytes with
  | nil => rfl
  | cons b bytes ih => exact congrArg (b :: ·) ih

theorem Ec.Socket.delivers_dripping (bytes : QByteArray) : (Socket.dripping bytes).Delivers := by
  refine Socket.delivers_ofChunks fun chunk hchunk => ?_
  obtain ⟨b, -, rfl⟩ := List.mem_map.mp hchunk
  exact List.cons_ne_nil b []

/-- A login, and a link with a letter that is not ASCII. -/
def addingLink : List Call := [
  ⟨.connectToDaemon (.lit "localhost") 4712 (.lit "secret"), .friendly⟩,
  ⟨.addLink (.lit "ed2k://|file|ñ|1|"), .friendly⟩]

theorem sendable_addingLink : ∀ c ∈ addingLink, c.slot.Sendable := by
  refine List.forall_mem_cons.mpr ⟨?_, List.forall_mem_singleton.mpr ?_⟩
  · intro request hrequest
    cases hrequest
  · intro request hrequest
    obtain rfl := Option.some.inj hrequest
    decide

theorem requests_readBack_addingLink :
    letI := sampleQt
    let sent := requestsOn 0 (addingLink.foldl Session.step {}).trace
    15 ≤ sent.length ∧ (List.range sent.length).map (fun i => (readPacket (afterReads (fun _ => 0)
      (Socket.dripping (sent.flatMap Packet.encode)) i)).1) = sent.map .ok :=
  letI := sampleQt
  haveI := sampleQt_lawfulUtf8
  haveI := sampleQt_lawfulText
  ⟨by decide, requests_readBack sendable_addingLink 0 _ (Socket.delivers_dripping _)
    (Socket.unread_dripping _) _⟩

end Amule
