import Chiaki.DiscoveryService
import Chiaki.Regist.Thread

/-!
# Discovery (`discovery.c`)

Requests are sent to the consoles, and their answers are read. A thread does the latter; it gives every host that it
has read to the discovery service, while the other thread of the service sends the requests.

What `getaddrinfo`, the sockets and `malloc` answer is a parameter, and so is what a buffer contains at first. What only
goes to the log is left out.
-/

namespace Chiaki

open Infra

/-- `CHIAKI_DISCOVERY_PROTOCOL_VERSION_PS4` -/
def discoveryProtocolVersionPs4 : Bytes := ascii "00020020"

/-- `CHIAKI_DISCOVERY_PROTOCOL_VERSION_PS5` -/
def discoveryProtocolVersionPs5 : Bytes := ascii "00030010"

/-- `CHIAKI_DISCOVERY_PORT_PS4` -/
def discoveryPortPs4 : Nat := 987

/-- `CHIAKI_DISCOVERY_PORT_PS5` -/
def discoveryPortPs5 : Nat := 9302

/-- The version that is spoken with a console. -/
def discoveryProtocolVersion (ps5 : Bool) : Bytes :=
  if ps5 then discoveryProtocolVersionPs5 else discoveryProtocolVersionPs4

/-- The port on which a console is asked. -/
def discoveryPort (ps5 : Bool) : Nat := if ps5 then discoveryPortPs5 else discoveryPortPs4

/-- `CHIAKI_DISCOVERY_PORT_LOCAL_MIN` -/
def discoveryPortLocalMin : Nat := 9303

/-- `CHIAKI_DISCOVERY_PORT_LOCAL_MAX` -/
def discoveryPortLocalMax : Nat := 9319

/-- `sizeof(buf)`, of what is sent and of what is received. -/
def discoveryBufSize : Nat := 512

/-- `sizeof(addr_buf)` -/
def discoveryAddrBufSize : Nat := 64

/-! ## Hosts -/

/-- `chiaki_discovery_host_state_string` -/
def discoveryHostStateString : DiscoveryHostState → Bytes
  | .ready => ascii "ready"
  | .standby => ascii "standby"
  | .unknown => ascii "unknown"

/-- `chiaki_discovery_host_is_ps5` -/
def discoveryHostIsPs5 (host : DiscoveryHost) : Bool :=
  match host.string .deviceDiscoveryProtocolVersion with
  | none => false
  | some version => version = discoveryProtocolVersionPs5

/-- `chiaki_discovery_host_system_version_target`. The version must not be `NULL`. -/
def discoveryHostSystemVersionTarget (host : DiscoveryHost) : Except Fault Target :=
  match host.string .systemVersion with
  | none => .error .nullPointer
  | some systemVersion =>
    let version := (StrTo.strtol 10 systemVersion).bmod (2 ^ 32)
    let isPs5 := discoveryHostIsPs5 host
    .ok (if version ≥ 8050001 ∧ isPs5 then .ps51
      else if version ≥ 8050000 ∧ isPs5 then .ps5Unknown
      else if version ≥ 8000000 then .ps410
      else if version ≥ 7000000 then .ps49
      else if version > 0 then .ps48
      else .ps4Unknown)

/-! ## Answers -/

/-- `inet_ntop` of an IPv4 address. -/
def inetNtop (addr : Vector UInt8 4) : Bytes :=
  [0x2e].intercalate (addr.toList.map fun b => StrTo.unsigned b.toNat)

/-- `sockaddr_str`. The socket is one of `AF_INET`. -/
def sockaddrStr (addr : Vector UInt8 4) (addrBufSize : Nat) : Option Bytes :=
  if (inetNtop addr).length < addrBufSize then some (inetNtop addr) else none

def DiscoveryHost.setString (host : DiscoveryHost) (name : DiscoveryHostString) (value : Bytes) : DiscoveryHost :=
  { host with string := fun name' => if name' = name then some value else host.string name' }

/-- The `switch` on the code. -/
def discoveryHostState (code : Int) : DiscoveryHostState :=
  if code = 200 then .ready else if code = 620 then .standby else .unknown

/-- What the loop of `chiaki_discovery_srch_response_parse` does with one header. -/
def discoveryHostHeader (response : DiscoveryHost) (header : HttpHeader) : DiscoveryHost :=
  let key := header.key.bytes
  let value := header.value.bytes
  if key = ascii "system-version" then response.setString .systemVersion value
  else if key = ascii "device-discovery-protocol-version" then response.setString .deviceDiscoveryProtocolVersion value
  else if key = ascii "host-request-port" then { response with hostRequestPort := StrTo.strtoull 0 value % 2 ^ 16 }
  else if key = ascii "host-name" then response.setString .hostName value
  else if key = ascii "host-type" then response.setString .hostType value
  else if key = ascii "host-id" then response.setString .hostId value
  else if key = ascii "running-app-titleid" then response.setString .runningAppTitleid value
  else if key = ascii "running-app-name" then response.setString .runningAppName value
  else response

/-- `chiaki_discovery_srch_response_parse` of the first `bufSize` bytes of `mem`. The strings of the host are those that
its pointers into the buffer point to. -/
def discoverySrchResponseParse (malloc : Nat → Bool) (addr : Vector UInt8 4) (addrBufSize : Nat) (mem : Bytes)
    (bufSize : Nat) : Except Fault (Except ErrorCode DiscoveryHost) := do
  let (mem, httpResponse) ← httpResponseParse malloc mem bufSize
  match httpResponse with
  | .error err => return .error err
  | .ok httpResponse =>
    let response : DiscoveryHost :=
      { discoveryHostZero with
        string := fun name => if name = .hostAddr then sockaddrStr addr addrBufSize else none
        state := discoveryHostState httpResponse.code }
    match readHeaders mem httpResponse.headers with
    | none => throw .outOfBounds
    | some headers => return .ok (headers.foldl discoveryHostHeader response)

/-! ## Requests -/

/-- `ChiakiDiscoveryCmd` -/
inductive DiscoveryCmd
  | srch
  | wakeup
  deriving DecidableEq

/-- `ChiakiDiscoveryPacket` -/
structure DiscoveryPacket where
  cmd : DiscoveryCmd
  protocolVersion : Option Bytes
  userCredential : Nat

/-- `chiaki_discovery_packet_fmt` -/
def discoveryPacketFmt (buf : Bytes) (bufSize : Nat) (packet : DiscoveryPacket) : Except Fault (Bytes × Int) :=
  match packet.protocolVersion with
  | none => .ok (buf, -1)
  | some protocolVersion =>
    match packet.cmd with
    | .srch =>
      snprintf buf 0 bufSize (ascii "SRCH * HTTP/1.1\ndevice-discovery-protocol-version:" ++ protocolVersion
        ++ ascii "\n")
    | .wakeup =>
      snprintf buf 0 bufSize (ascii "WAKEUP * HTTP/1.1\n"
        ++ ascii "client-type:vr\n"
        ++ ascii "auth-type:R\n"
        ++ ascii "model:w\n"
        ++ ascii "app-type:r\n"
        ++ ascii "user-credential:" ++ StrTo.unsigned packet.userCredential ++ ascii "\n"
        ++ ascii "device-discovery-protocol-version:" ++ protocolVersion ++ ascii "\n")

/-- What is looked at and written of a `sockaddr`. -/
structure DiscoveryAddr where
  saFamily : SaFamily
  port : Nat
  host : Bytes
  deriving DecidableEq

/-- What is done with a socket. -/
inductive DiscoveryAction
  | socket
  | bind (port : Nat)
  | sendto (addr : DiscoveryAddr) (data : Bytes)
  | close
  deriving DecidableEq

/-- `chiaki_discovery_send` on a socket of a family. The NUL is sent, too. -/
def discoverySend (stack : Bytes) (sendto : Bool) (family : SaFamily) (packet : DiscoveryPacket)
    (addr : DiscoveryAddr) : Except Fault (List DiscoveryAction × ErrorCode) := do
  if addr.saFamily ≠ family then return ([], .invalidData)
  else
    let (buf, len) ← discoveryPacketFmt stack discoveryBufSize packet
    if len < 0 then return ([], .unknown)
    else if len.toNat ≥ discoveryBufSize then return ([], .bufTooSmall)
    else return ([.sendto addr (slice buf 0 (len.toNat + 1))], if sendto then .success else .network)

/-- The loop of `chiaki_discovery_init` with at most `n` turns: the ports that are tried, and whether the last one could
be bound. -/
def discoveryBindLoop (bind : Nat → Bool) : Nat → Nat → List DiscoveryAction × Bool
  | 0, _ => ([], false)
  | n + 1, port =>
    if bind port ∨ port = 0 then ([.bind port], bind port)
    else
      let (actions, bound) := discoveryBindLoop bind n
        (if port = discoveryPortLocalMax then 0 else (port + 1) % 2 ^ 16)
      (.bind port :: actions, bound)

/-- `chiaki_discovery_init`, without the option that is set at its end. An address of `AF_INET6` does not fit. -/
def discoveryInit (socket : Bool) (bind : Nat → Bool) (family : SaFamily) :
    Except Fault (List DiscoveryAction × ErrorCode) :=
  if family = .other then .ok ([], .invalidData)
  else if !socket then .ok ([], .network)
  else if family = .inet6 then .error .outOfBounds
  else
    let (actions, bound) := discoveryBindLoop bind (2 ^ 16) discoveryPortLocalMin
    .ok (if bound then (.socket :: actions, .success) else (.socket :: actions ++ [.close], .network))

/-! ## Waking up -/

/-- An address that `getaddrinfo` has found. -/
structure DiscoveryAddrInfo where
  family : SaFamily
  addrLen : Nat
  addr : DiscoveryAddr

/-- What is answered in `chiaki_discovery_wakeup`. -/
structure DiscoveryWakeupEnv where
  addrinfos : Option (List DiscoveryAddrInfo)
  socket : Bool
  bind : Nat → Bool
  sendto : Bool
  stack : Bytes

/-- The request of `chiaki_discovery_wakeup` -/
def discoveryWakeupPacket (userCredential : Nat) (ps5 : Bool) : DiscoveryPacket where
  cmd := .wakeup
  protocolVersion := some (discoveryProtocolVersion ps5)
  userCredential := userCredential

/-- `chiaki_discovery_wakeup`. `discovery` is the family of the socket of the discovery, if there is one. -/
def discoveryWakeup (env : DiscoveryWakeupEnv) (discovery : Option SaFamily) (userCredential : Nat) (ps5 : Bool) :
    Except Fault (List DiscoveryAction × ErrorCode) :=
  match env.addrinfos with
  | none => .ok ([], .network)
  | some addrinfos =>
    -- `addr_len` stays zero if there is none, and also if the one that is taken has no length
    match addrinfos.find? fun ai => ai.family = .inet ∧ ai.addrLen ≤ sizeofSockaddr with
    | none => .ok ([], .unknown)
    | some ai =>
      if ai.addrLen = 0 then .ok ([], .unknown)
      else
        let addr := { ai.addr with port := discoveryPort ps5 }
        let packet := discoveryWakeupPacket userCredential ps5
        match discovery with
        | some family => discoverySend env.stack env.sendto family packet addr
        | none => do
          let (init, err) ← discoveryInit env.socket env.bind .inet
          if err ≠ .success then return (init, err)
          else
            let (sent, err) ← discoverySend env.stack env.sendto .inet packet addr
            return (init ++ sent ++ [.close], err)

/-! ## The threads -/

/-- A datagram that is received, and with it who has sent it, which calls of `malloc` succeed, and what `buf` contains
at first. -/
structure DiscoveryDatagram where
  addr : Vector UInt8 4
  data : Bytes
  malloc : Nat → Bool
  stack : Bytes
  length_stack : stack.length = discoveryBufSize

/-- The service, whether the thread of the discovery still runs, and what was sent, the last of it first. -/
structure Discovery where
  service : DiscoveryService
  listening : Bool
  sent : List DiscoveryAction

/-- `buf` when the NUL has been written, and how much was received. -/
def DiscoveryDatagram.received (datagram : DiscoveryDatagram) : Bytes × Nat :=
  let data := datagram.data.take (discoveryBufSize - 1)
  ((splice datagram.stack 0 data).set data.length 0, data.length)

/-- What `discovery_thread_func` does with a datagram. -/
def discoveryThreadReceived (o : DiscoveryServiceOptions) (s : Discovery) (datagram : DiscoveryDatagram) :
    Except Fault Discovery := do
  let (buf, n) := datagram.received
  if n = 0 then return s
  else
    match ← discoverySrchResponseParse datagram.malloc datagram.addr discoveryAddrBufSize buf n with
    | .error _ => return s
    | .ok response => return { s with service := ← discoveryServiceHostReceived o s.service response }

/-- The request that the service sends to the consoles of a kind. -/
def discoverySearchPacket (ps5 : Bool) : DiscoveryPacket where
  cmd := .srch
  protocolVersion := some (discoveryProtocolVersion ps5)
  userCredential := 0

/-- `discovery_service_ping` with what it sends. The socket is of the family of `send_addr`. -/
def discoveryPing (o : DiscoveryServiceOptions) (sendAddr : DiscoveryAddr) (stack : Bytes) (sendto : Bool)
    (s : Discovery) : Except Fault Discovery := do
  let service ← discoveryServicePing o s.service
  if sendAddr.saFamily = .other then return { s with service := service }
  else
    let (ps4, _) ← discoverySend stack sendto sendAddr.saFamily (discoverySearchPacket false)
      { sendAddr with port := discoveryPort false }
    let (ps5, _) ← discoverySend stack sendto sendAddr.saFamily (discoverySearchPacket true)
      { sendAddr with port := discoveryPort true }
    return { s with service := service, sent := ps5 ++ ps4 ++ s.sent }

/-- What happens. The thread of the discovery ends if it is stopped, or if the socket has an error. -/
inductive DiscoveryLabel
  | datagram (datagram : DiscoveryDatagram)
  | ends
  | ping (stack : Bytes) (sendto : Bool) (length_stack : stack.length = discoveryBufSize)

def discoveryStep (o : DiscoveryServiceOptions) (sendAddr : DiscoveryAddr) (s : Discovery) :
    DiscoveryLabel → Except Fault Discovery
  | .datagram datagram => if s.listening then discoveryThreadReceived o s datagram else .ok s
  | .ends => .ok { s with listening := false }
  | .ping stack sendto _ => discoveryPing o sendAddr stack sendto s

/-- The discovery after what has happened, the last of it first. -/
def discoveryRun (o : DiscoveryServiceOptions) (sendAddr : DiscoveryAddr) : List DiscoveryLabel → Except Fault Discovery
  | [] => .ok ⟨discoveryServiceInit o, true, []⟩
  | label :: before => do
    let s ← discoveryRun o sendAddr before
    discoveryStep o sendAddr s label

end Chiaki
