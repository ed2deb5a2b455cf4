import Chiaki.Ctrl.Response
import Chiaki.Http
import Chiaki.Regist

/-!
# Connecting ctrl (`ctrl_connect`)

A request is sent on a new socket, and the response to it is received. What the network, `malloc` and the
encryption answer are parameters. What happens to the socket is written to a list.

What only goes to the log is left out, and so is `chiaki_socket_set_nonblock`, whose error does.
-/

namespace Chiaki

open Infra

/-- `SESSION_CTRL_PORT` -/
def sessionCtrlPort : Nat := 9295

/-- `SESSION_OSTYPE` -/
def sessionOstype : Bytes := ascii "Win10.0.0"

/-- `CHIAKI_RPCRYPT_KEY_SIZE` -/
def rpcryptKeySize : Nat := 0x10

/-- `CHIAKI_RP_DID_SIZE` -/
def rpDidSize : Nat := 32

/-- `sizeof(buf)` -/
def ctrlConnectBufSize : Nat := 512

/-- `ChiakiQuitReason` -/
inductive QuitReason
  | none
  | stopped
  | sessionRequestUnknown
  | sessionRequestConnectionRefused
  | sessionRequestRpInUse
  | sessionRequestRpCrash
  | sessionRequestRpVersionMismatch
  | ctrlUnknown
  | ctrlConnectFailed
  | ctrlConnectionRefused
  | streamConnectionUnknown
  | streamConnectionRemoteDisconnected
  deriving DecidableEq, Repr

/-- The values of `ChiakiTarget`. -/
def Target.value : Target → Nat
  | .ps4Unknown => 0
  | .ps48 => 800
  | .ps49 => 900
  | .ps410 => 1000
  | .ps5Unknown => 1000000
  | .ps51 => 1000100

/-- `chiaki_rp_version_string` -/
def rpVersionString : Target → Option Bytes
  | .ps48 => some (ascii "8.0")
  | .ps49 => some (ascii "9.0")
  | .ps410 => some (ascii "10.0")
  | .ps51 => some (ascii "1.0")
  | _ => none

/-! ## Parameters -/

/-- What `ctrl_connect` reads of the session. An error of the encryption is none of `CHIAKI_ERR_SUCCESS`. -/
structure CtrlConnectSession where
  target : Target
  hostname : CString
  registKey : Bytes
  did : Bytes
  videoProfile : ConnectVideoProfile
  videoProfileAutoDowngrade : Bool
  rpcrypt : RPCrypt
  length_hostname : hostname.bytes.length < 256
  length_registKey : registKey.length = rpcryptKeySize
  length_did : did.length = rpDidSize
  encrypt_error : ∀ counter plain, rpcrypt.encrypt counter plain ≠ .error .success

/-- `sa_family`, as far as it is looked at. -/
inductive SaFamily
  | inet
  | inet6
  | other
  deriving DecidableEq, Repr

/-- What the functions that are called answer, and what an array of a size contains at first. `connect` is
the result of `chiaki_stop_pipe_connect`, and `sent` that of `send`. -/
structure CtrlConnectEnv where
  malloc : Bool
  saFamily : SaFamily
  socket : Option Nat
  connect : ErrorCode
  sent : Int
  rounds : List RecvRound
  mallocHeader : Nat → Bool
  charSigned : Bool
  stack : Nat → Bytes
  length_stack : ∀ size, (stack size).length = size

/-- What happens to a socket. `send` returns how much it has sent, or −1. -/
inductive SocketEvent
  | opened (sock : Nat)
  | send (sock : Nat) (data : Bytes) (sent : Int)
  | closed (sock : Nat)
  deriving DecidableEq

/-- What `ctrl_connect` writes. `recvBuf` is the beginning of `recv_buf` that is in use. -/
structure CtrlConnect where
  cryptCounterLocal : Nat
  cryptCounterRemote : Nat
  videoProfile : ConnectVideoProfile
  failed : Option QuitReason
  sock : Option Nat
  recvBuf : Bytes
  sockets : List SocketEvent
  deriving DecidableEq

/-- A socket is opened, used or closed. -/
def CtrlConnect.log (ctrl : CtrlConnect) (event : SocketEvent) : CtrlConnect :=
  { ctrl with sockets := ctrl.sockets ++ [event] }

/-! ## The request -/

/-- The values of the header fields of the request. -/
structure CtrlRequestFields where
  auth : CString
  did : CString
  ostype : CString
  bitrate : Option CString
  streamingType : Option CString

/-- A value is encrypted with the next counter, and written as text into an array of `size` bytes. -/
def ctrlRequestField (session : CtrlConnectSession) (env : CtrlConnectEnv) (plain : Bytes) (size : Nat) :
    ExceptT ErrorCode (StateT Nat (Except Fault)) CString := fun counter =>
  match session.rpcrypt.encrypt counter plain with
  | .error err => .ok (.error err, counter + 1)
  | .ok enc => do
    let (b64, err) ← base64Encode enc (env.stack size) size
    if err ≠ .success then return (.error err, counter + 1)
    else
      match CString.read b64 0 with
      | none => throw .outOfBounds
      | some text => return (.ok text, counter + 1)

/-- A value that the request may have. -/
def ctrlRequestFieldIf (session : CtrlConnectSession) (env : CtrlConnectEnv) (present : Bool) (plain : Bytes)
    (size : Nat) : ExceptT ErrorCode (StateT Nat (Except Fault)) (Option CString) :=
  if present then do
    let text ← ctrlRequestField session env plain size
    return some text
  else return none

/-- `session->target >= CHIAKI_TARGET_PS4_10` -/
def Target.hasBitrate (target : Target) : Bool := decide (Target.value .ps410 ≤ target.value)

/-- `streaming_type` -/
def Codec.streamingType : Codec → Nat
  | .h265 => 2
  | .h265Hdr => 3
  | .h264 => 1

/-- `streaming_type_buf` -/
def streamingTypeBuf (streamingType : Nat) : Bytes :=
  [UInt8.ofNat streamingType, UInt8.ofNat (streamingType / 2 ^ 8), UInt8.ofNat (streamingType / 2 ^ 16),
    UInt8.ofNat (streamingType / 2 ^ 24)]

/-- The header fields of the request, with `crypt_counter_local`. -/
def ctrlRequestFields (session : CtrlConnectSession) (env : CtrlConnectEnv) :
    ExceptT ErrorCode (StateT Nat (Except Fault)) CtrlRequestFields := do
  let auth ← ctrlRequestField session env session.registKey (rpcryptKeySize * 2)
  let did ← ctrlRequestField session env session.did (rpDidSize * 2)
  -- `err` is that of the last call
  if 128 < sessionOstype.length + 1 then throw .success
  let ostype ← ctrlRequestField session env (sessionOstype ++ [0]) 256
  let bitrate ← ctrlRequestFieldIf session env session.target.hasBitrate (List.replicate 4 0) 256
  let streamingType ← ctrlRequestFieldIf session env session.target.isPs5
    (streamingTypeBuf session.videoProfile.codec.streamingType) 256
  return ⟨auth, did, ostype, bitrate, streamingType⟩

/-- `path` -/
def ctrlRequestPath (target : Target) : Bytes :=
  if target = .ps48 ∨ target = .ps49 then ascii "/sce/rp/session/ctrl"
  else if target.isPs5 then ascii "/sie/ps5/rp/sess/ctrl"
  else ascii "/sie/ps4/rp/sess/ctrl"

/-- A header field that the request may have. -/
def ctrlRequestOptional (name : Bytes) (value : Option CString) : Bytes :=
  value.elim [] fun value => name ++ value.bytes ++ ascii "\r\n"

/-- `request_fmt` with what is printed into it. -/
def ctrlRequest (session : CtrlConnectSession) (fields : CtrlRequestFields) : Bytes :=
  ascii "GET " ++ ctrlRequestPath session.target ++ ascii " HTTP/1.1\r\n"
    ++ ascii "Host: " ++ session.hostname.bytes ++ ascii ":" ++ StrTo.decimal sessionCtrlPort ++ ascii "\r\n"
    ++ ascii "User-Agent: remoteplay Windows\r\n"
    ++ ascii "Connection: keep-alive\r\n"
    ++ ascii "Content-Length: 0\r\n"
    ++ ascii "RP-Auth: " ++ fields.auth.bytes ++ ascii "\r\n"
    ++ ascii "RP-Version: " ++ (rpVersionString session.target).getD [] ++ ascii "\r\n"
    ++ ascii "RP-Did: " ++ fields.did.bytes ++ ascii "\r\n"
    ++ ascii "RP-ControllerType: 3\r\n"
    ++ ascii "RP-ClientType: 11\r\n"
    ++ ascii "RP-OSType: " ++ fields.ostype.bytes ++ ascii "\r\n"
    ++ ascii "RP-ConPath: 1\r\n"
    ++ ctrlRequestOptional (ascii "RP-StartBitrate: ") fields.bitrate
    ++ ctrlRequestOptional (ascii "RP-StreamingType: ") fields.streamingType
    ++ ascii "\r\n"

/-! ## Connecting -/

/-- `ctrl_connect` from where it formats its request on, or `none` while it waits for the response. -/
def ctrlConnectExchange (session : CtrlConnectSession) (env : CtrlConnectEnv) (ctrl : CtrlConnect) (sock : Nat)
    (fields : CtrlRequestFields) : Except Fault (Option (CtrlConnect × ErrorCode)) := do
  let request := ctrlRequest session fields
  -- `err` is that of the last call
  if ctrlConnectBufSize ≤ request.length then return some (ctrl.log (.closed sock), .success)
  else
    let ctrl := ctrl.log (.send sock request env.sent)
    if env.sent < 0 then return some (ctrl.log (.closed sock), .success)
    else
      let (header, result) := recvHttpHeader true ctrlConnectBufSize env.rounds
      let buf ← recvWrite (splice (env.stack ctrlConnectBufSize) 0 (request ++ [0])) header.calls env.rounds
      match result with
      | .waiting => return none
      | .error err => return some (ctrl.log (.closed sock), err)
      | .success headerSize =>
        let received ← ctrlConnectReceived env.mallocHeader session.rpcrypt env.charSigned
          session.videoProfileAutoDowngrade session.videoProfile buf headerSize header.receivedSize
        match received with
        | .error err => return some (ctrl.log (.closed sock), err)
        | .ok (connection, rest) =>
          return some
            ({ ctrl with
                cryptCounterRemote := connection.cryptCounterRemote
                videoProfile := connection.videoProfile
                sock := some sock
                recvBuf := rest }, .success)

/-- `ctrl_connect` -/
def ctrlConnect (session : CtrlConnectSession) (env : CtrlConnectEnv) :
    Except Fault (Option (CtrlConnect × ErrorCode)) := do
  let ctrl : CtrlConnect := ⟨0, 0, session.videoProfile, none, none, [], []⟩
  if !env.malloc then return some (ctrl, .memory)
  else if env.saFamily = .other then return some (ctrl, .invalidData)
  else
    match env.socket with
    | none => return some ({ ctrl with failed := some .ctrlUnknown }, .network)
    | some sock =>
      let ctrl := ctrl.log (.opened sock)
      if env.connect = .canceled then return some ((ctrl.log (.closed sock)).log (.closed sock), .canceled)
      else if env.connect ≠ .success then
        let reason := if env.connect = .connectionRefused then .ctrlConnectionRefused else .ctrlUnknown
        return some ({ ctrl with failed := some reason }.log (.closed sock), env.connect)
      else
        let (fields, cryptCounterLocal) ← ctrlRequestFields session env 0
        let ctrl := { ctrl with cryptCounterLocal := cryptCounterLocal }
        match fields with
        | .error err => return some (ctrl.log (.closed sock), err)
        | .ok fields => ctrlConnectExchange session env ctrl sock fields

end Chiaki
