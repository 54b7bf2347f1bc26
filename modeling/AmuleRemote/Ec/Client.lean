import AmuleRemote.Ec.World

/-!
# The EC client: exchanges and the login handshake

The functions of `ec/client.cpp` above the socket. What an exchange does on the
socket is `Ec.Frames`.
-/

namespace Amule

namespace Ec

variable [Qt]

def md5Raw (data : QByteArray) : Octets 16 := Qt.md5 data

def md5Hex (data : QByteArray) : QString := QString.fromLatin1 (QByteArray.toHex (md5Raw data).val)

/-- `QChar::toLatin1` with `isxdigit`. -/
def isHexUnit (c : UInt16) : Bool :=
  (0x30 ≤ c.toNat && c.toNat ≤ 0x39) || (0x41 ≤ c.toNat && c.toNat ≤ 0x46) ||
    (0x61 ≤ c.toNat && c.toNat ≤ 0x66)

/-- The MD5 digest of a password that may already be one. -/
def normalizePasswordMd5 (input : QString) : QString :=
  let isMd5Hex := input.length = 32 && input.all isHexUnit
  if isMd5Hex then Qt.toLower input else md5Hex (Qt.toUtf8 input)

def saltedPasswordHash (passMd5Hex : QString) (salt : UInt64) : Hash16 :=
  let saltStr := QString.upperHex (QString.number salt.toNat 16)
  let saltHash := md5Hex (QString.toLatin1 saltStr)
  let combined := QString.toLatin1 (Qt.toLower passMd5Hex) ++ QString.toLatin1 saltHash
  md5Raw combined

namespace EcClient

omit [Qt] in
/-- Send a request and read one reply. -/
def exchange (client : EcClient) (request : Packet) : EcM Packet := do
  let w ← getThe World
  set (w.exchanged client request)
  match w.network.replies 0 with
  | .ok reply => pure reply
  | .error e => throw e

omit [Qt] in
/-- An exchange hands on what the network has to say. -/
theorem run_exchange (client : EcClient) (request : Packet) (w : World) :
    (client.exchange request).run.run w =
      (w.network.replies 0, w.exchanged client request) := by
  show StateT.run (ExceptT.run (match w.network.replies 0 with
    | .ok reply => pure reply
    | .error e => throw e : EcM Packet)) (w.exchanged client request) = _
  cases w.network.replies 0 with
  | ok reply => rfl
  | error e => rfl

omit [Qt] in
def request (client : EcClient) (opcode : UInt8) : EcM Packet := client.exchange ⟨opcode, []⟩

def authRequest : Packet :=
  ⟨Op.authReq, [
    .string TagName.clientName (.lit "amule-remote-qt"),
    .string TagName.clientVersion (.lit "0.1.0"),
    .integer TagName.protocolVersion currentProtocolVersion.toUInt64,
    .empty TagName.canLargeTagCount,
    .empty TagName.canPartialUpdate]⟩

/-- The answer to the daemon's salt. -/
def passwdRequest (passMd5Hex : QString) (salt : UInt64) : Packet :=
  ⟨Op.authPasswd, [.hash TagName.passwdHash (saltedPasswordHash passMd5Hex salt)]⟩

/-- The reply to the login, after the salted password if the daemon asks for it. -/
def login (client : EcClient) (passMd5Hex : QString) : EcM Packet := do
  let resp ← client.exchange authRequest
  if resp.opcode = Op.authSalt then
    match resp.tagInt TagName.passwdSalt with
    | none => throw ⟨.missingSalt, .lit "the daemon did not send a password salt"⟩
    | some salt =>
      client.exchange
        ⟨Op.authPasswd, [.hash TagName.passwdHash (saltedPasswordHash passMd5Hex salt)]⟩
  else pure resp

/-- The client with the version the daemon reports, once the login is accepted. -/
def authenticate (client : EcClient) (passMd5Hex : QString) : EcM EcClient := do
  let resp ← client.login passMd5Hex
  if resp.opcode = Op.authOk then
    pure { client with
      serverVersion := (resp.tagString TagName.serverVersion).getD (.lit "unknown") }
  else if resp.opcode = Op.authFail then
    throw ⟨.authFailed,
      (resp.tagString TagName.string).getD (.lit "daemon rejected the connection")⟩
  else
    throw ⟨.unexpected, (QString.lit "unexpected response: opcode 0x%1").arg
      (QString.padded 2 (QString.number resp.opcode.toNat 16))⟩

/-- A client of its own for every attempt. The address goes to the socket, which
    only answers whether it connects. -/
def connectWithMd5 (_host : QString) (_port : UInt16) (passMd5Hex : QString) : EcM EcClient := do
  let w ← getThe World
  set w.opened
  match w.network.connected with
  | .error message => throw ⟨.io, message⟩
  | .ok () => authenticate ⟨w.nextId, []⟩ (Qt.toLower passMd5Hex)

end EcClient

end Ec

open Ec

/-- What is left of a network once a login on it is accepted; nothing if it is
    refused. -/
def Network.login (n : Network) : Option Network :=
  match n.connected, n.replies 0 with
  | .ok (), .ok resp =>
    if resp.opcode = Op.authSalt then
      match resp.tagInt TagName.passwdSalt, n.replies 1 with
      | some _, .ok resp => if resp.opcode = Op.authOk then some n.next.next else none
      | _, _ => none
    else if resp.opcode = Op.authOk then some n.next
    else none
  | _, _ => none

end Amule
