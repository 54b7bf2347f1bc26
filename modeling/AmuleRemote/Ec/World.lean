import AmuleRemote.Model
import Mathlib.Data.List.AList

/-!
# The worker thread and what it talks to

The state of `EcWorker`, the signals it emits and the errors of the EC client.
A slot of the worker runs to its end before the next one starts, so a slot is a
program over one `World`: the worker, the trace of what it has done so far, and
the network's answers to the call that is running.

A connection is known by a number that no other connection has. The socket is
not part of the world: an exchange takes the next outcome from the network,
whatever it is.
-/

namespace Amule

namespace Ec

/-- `EcError::Kind`. -/
inductive EcErrorKind
  | io
  | authFailed
  | unexpected
  | remote
  | missingSalt
deriving DecidableEq

structure EcError where
  kind : EcErrorKind := .io
  message : QString := []
deriving DecidableEq

structure EcClient where
  id : ℕ
  serverVersion : QString := []
deriving DecidableEq

end Ec

open Ec

inductive ConnStatus
  | disconnected
  | connecting
  | connected
  | error
deriving DecidableEq

/-- The signals of `EcWorker`. -/
inductive Signal
  | statusChanged (status : ConnStatus) (detail : QString)
  | logMessage (message : QString)
  | statsUpdated (stats : Stats)
  | downloadsUpdated (downloads : List Download)
  | connStateUpdated (conn : ConnState)
  | serversUpdated (servers : List Server)
  | sharedFilesUpdated (files : List SharedFile)
  | sourcesUpdated (sources : List SourceClient)
  | searchProgressChanged (progress : UInt32)
  | searchResultsUpdated (results : List SearchResult)
  | searchingChanged (searching : Bool)
  | prefsUpdated (prefs : DaemonPrefs)

/-- The source clients by their EC id. The order of the entries stands for the
    order of the hash map, which the program may not rely on. -/
abbrev SourceMap := AList fun _ : UInt32 => SourceClient

structure EcWorker where
  client : Option EcClient := none
  sourceClients : SourceMap := ∅
  /-- the refresh timer is running -/
  timerActive : Bool := false
  searching : Bool := false
  at100 : Bool := false
  /-- when the grace timer was started, in milliseconds -/
  at100Timer : ℕ := 0

/-- What a slot does that others can see. An emission is kept with the
    connection the worker holds at that moment. -/
inductive Event
  | exchange (client : EcClient) (request : Packet) (reply : Except EcError Packet)
  | emit (client : Option EcClient) (signal : Signal)

/-- The network's answers to one slot call. -/
structure Network where
  /-- whether the socket connects, or its error string -/
  connected : Except QString Unit := .ok ()
  /-- the outcomes of the exchanges, in order -/
  replies : ℕ → Except EcError Packet
  /-- the clock, in milliseconds -/
  now : ℕ := 0

/-- The network after its next outcome. -/
def Network.next (n : Network) : Network := { n with replies := fun k => n.replies (k + 1) }

@[simp] theorem Network.replies_next (n : Network) (k : ℕ) :
    n.next.replies k = n.replies (k + 1) := rfl

/-- A daemon that accepts the login and has nothing to say. -/
def Network.friendly : Network := { replies := fun _ => .ok ⟨Op.authOk, []⟩ }

structure World where
  worker : EcWorker := {}
  /-- the number of the next connection -/
  nextId : ℕ := 0
  trace : List Event := []
  network : Network

namespace World

/-- One exchange on `client`, with the next outcome of the network. -/
def exchanged (w : World) (client : EcClient) (request : Packet) : World :=
  { w with
    trace := w.trace ++ [.exchange client request (w.network.replies 0)]
    network := w.network.next }

def emitted (w : World) (signal : Signal) : World :=
  { w with trace := w.trace ++ [.emit w.worker.client signal] }

/-- A connection attempt takes a number, whether it succeeds or not. -/
def opened (w : World) : World := { w with nextId := w.nextId + 1 }

def setWorker (w : World) (worker : EcWorker) : World := { w with worker := worker }

section

variable (w : World) (client : EcClient) (request : Packet) (signal : Signal) (worker : EcWorker)

@[simp] theorem worker_exchanged : (w.exchanged client request).worker = w.worker := rfl
@[simp] theorem nextId_exchanged : (w.exchanged client request).nextId = w.nextId := rfl
@[simp] theorem network_exchanged : (w.exchanged client request).network = w.network.next := rfl
@[simp] theorem trace_exchanged : (w.exchanged client request).trace =
    w.trace ++ [.exchange client request (w.network.replies 0)] := rfl

@[simp] theorem worker_emitted : (w.emitted signal).worker = w.worker := rfl
@[simp] theorem nextId_emitted : (w.emitted signal).nextId = w.nextId := rfl
@[simp] theorem network_emitted : (w.emitted signal).network = w.network := rfl
@[simp] theorem trace_emitted : (w.emitted signal).trace =
    w.trace ++ [.emit w.worker.client signal] := rfl

@[simp] theorem worker_opened : w.opened.worker = w.worker := rfl
@[simp] theorem nextId_opened : w.opened.nextId = w.nextId + 1 := rfl
@[simp] theorem trace_opened : w.opened.trace = w.trace := rfl
@[simp] theorem network_opened : w.opened.network = w.network := rfl

@[simp] theorem worker_setWorker : (w.setWorker worker).worker = worker := rfl
@[simp] theorem nextId_setWorker : (w.setWorker worker).nextId = w.nextId := rfl
@[simp] theorem trace_setWorker : (w.setWorker worker).trace = w.trace := rfl
@[simp] theorem network_setWorker : (w.setWorker worker).network = w.network := rfl

end

end World

/-- A slot of the worker, or a part of one. -/
abbrev SlotM := StateM World

/-- A function that returns `std::expected<_, EcError>`. -/
abbrev EcM := ExceptT EcError SlotM

def emit (signal : Signal) : SlotM Unit := modify (·.emitted signal)

def modifyWorker (f : EcWorker → EcWorker) : SlotM Unit :=
  modify fun w => w.setWorker (f w.worker)

end Amule
