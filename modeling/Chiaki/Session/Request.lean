import Chiaki.Ctrl.Connect
import Chiaki.Hex

/-!
# The session request (`session_thread_request_session`)

The addresses are tried one after the other until a connection is made; then the request is sent and the
response is received. Each way out of the function writes the quit reason, or leaves it. What the network
and `malloc` answer are parameters.

What happens to the sockets is left out.
-/

namespace Chiaki

open Infra

/-- `SESSION_PORT` -/
def sessionPort : Nat := 9295

/-- `sizeof(buf)` -/
def sessionRequestBufSize : Nat := 512

/-- `CHIAKI_RP_APPLICATION_REASON_IN_USE` -/
def rpApplicationReasonInUse : Nat := 0x80108b10

/-- `CHIAKI_RP_APPLICATION_REASON_CRASH` -/
def rpApplicationReasonCrash : Nat := 0x80108b15

/-- `CHIAKI_RP_APPLICATION_REASON_RP_VERSION` -/
def rpApplicationReasonRpVersion : Nat := 0x80108b11

/-- `CHIAKI_RP_APPLICATION_REASON_UNKNOWN` -/
def rpApplicationReasonUnknown : Nat := 0x80108bff

/-- `chiaki_target_is_unknown` -/
def Target.isUnknown : Target → Bool
  | .ps4Unknown | .ps5Unknown => true
  | _ => false

/-- `chiaki_rp_version_parse` -/
def rpVersionParse (rpVersion : Bytes) (isPs5 : Bool) : Target :=
  if isPs5 then if rpVersion = ascii "1.0" then .ps51 else .ps5Unknown
  else if rpVersion = ascii "8.0" then .ps48
  else if rpVersion = ascii "9.0" then .ps49
  else if rpVersion = ascii "10.0" then .ps410
  else .ps4Unknown

/-! ## Parameters -/

/-- What the session knows of its console from the beginning. -/
structure SessionConnectInfo where
  ps5 : Bool
  registKey : Bytes
  length_registKey : registKey.length = rpcryptKeySize

/-- What is answered for one address. `getnameinfo` may fail, and `connect` is the result of
`chiaki_stop_pipe_connect`. -/
structure SessionAddress where
  malloc : Bool
  saFamily : SaFamily
  hostname : Option CString
  socket : Bool
  connect : ErrorCode

/-- What is answered during one call, and what an array of a size contains at first. -/
structure SessionRequestEnv where
  addresses : List SessionAddress
  sent : Int
  rounds : List RecvRound
  mallocHeader : Nat → Bool
  charSigned : Bool
  stack : Nat → Bytes
  length_stack : ∀ size, (stack size).length = size

/-- The part of the session that is written. -/
structure SessionRequest where
  target : Target
  hostname : CString
  nonce : Bytes
  quitReason : QuitReason

/-! ## Connecting -/

/-- What is used when `getnameinfo` fails. -/
def unknownHostname : CString := ⟨ascii "unknown", by decide⟩

/-- The loop over the addresses, and whether it ends with a socket. -/
def sessionRequestConnect : SessionRequest → List SessionAddress → SessionRequest × Bool
  | s, [] => (s, false)
  | s, addr :: addrs =>
    if addr.malloc = false ∨ addr.saFamily = .other then sessionRequestConnect s addrs
    else
      let s := { s with hostname := addr.hostname.getD unknownHostname }
      if addr.socket = false then sessionRequestConnect s addrs
      else if addr.connect = .canceled then ({ s with quitReason := .stopped }, false)
      else if addr.connect ≠ .success then
        sessionRequestConnect
          { s with
            quitReason :=
              if addr.connect = .connectionRefused then .sessionRequestConnectionRefused else .none } addrs
      else (s, true)

/-! ## The request and the response -/

/-- `path` -/
def sessionRequestPath (target : Target) : Bytes :=
  if target = .ps48 ∨ target = .ps49 then ascii "/sce/rp/session"
  else if target.isPs5 then ascii "/sie/ps5/rp/sess/init"
  else ascii "/sie/ps4/rp/sess/init"

/-- `session_request_fmt` with what is printed into it. -/
def sessionRequestText (s : SessionRequest) (registKeyHex rpVersion : Bytes) : Bytes :=
  ascii "GET " ++ sessionRequestPath s.target ++ ascii " HTTP/1.1\r\n"
    ++ ascii "Host: " ++ s.hostname.bytes ++ ascii ":" ++ StrTo.decimal sessionPort ++ ascii "\r\n"
    ++ ascii "User-Agent: remoteplay Windows\r\n"
    ++ ascii "Connection: close\r\n"
    ++ ascii "Content-Length: 0\r\n"
    ++ ascii "RP-Registkey: " ++ registKeyHex ++ ascii "\r\n"
    ++ ascii "Rp-Version: " ++ rpVersion ++ ascii "\r\n"
    ++ ascii "\r\n"

/-- `SessionResponse` -/
structure SessionResponse where
  errorCode : Nat
  nonce : Option CString
  rpVersion : Option CString
  success : Bool

/-- `tolower` of an ASCII character. -/
def toLower (c : UInt8) : UInt8 := if 0x41 ≤ c ∧ c ≤ 0x5a then c + 0x20 else c

/-- One header in the loop of `parse_session_response`. -/
def parseSessionHeader (response : SessionResponse) (header : HttpHeader) : SessionResponse :=
  if header.key.bytes = ascii "RP-Nonce" then { response with nonce := some header.value }
  else if header.key.bytes.map toLower = ascii "rp-version" then { response with rpVersion := some header.value }
  else if header.key.bytes = ascii "RP-Application-Reason" then
    { response with errorCode := StrTo.strtoull 0x10 header.value.bytes % 2 ^ 32 }
  else response

/-- `parse_session_response` -/
def parseSessionResponse (code : Int) (headers : List HttpHeader) : SessionResponse :=
  let response := headers.foldl parseSessionHeader ⟨0, none, none, false⟩
  { response with success := decide (code = 200) && response.nonce.isSome }

/-- The target that a version stands for, and the quit reason if there is none. -/
def sessionVersionTarget (info : SessionConnectInfo) (s : SessionRequest) (rpVersion : Bytes) :
    SessionRequest × Target :=
  let target := rpVersionParse rpVersion info.ps5
  if !target.isUnknown then (s, target)
  else if rpVersion = ascii "5.0" then (s, .ps49)
  else ({ s with quitReason := .sessionRequestRpVersionMismatch }, target)

/-- The `switch` over the application reason. -/
def sessionApplicationReason (s : SessionRequest) (errorCode : Nat) : SessionRequest × ErrorCode :=
  if errorCode = rpApplicationReasonInUse then ({ s with quitReason := .sessionRequestRpInUse }, .unknown)
  else if errorCode = rpApplicationReasonCrash then ({ s with quitReason := .sessionRequestRpCrash }, .unknown)
  else if errorCode = rpApplicationReasonRpVersion then
    ({ s with quitReason := .sessionRequestRpVersionMismatch }, .versionMismatch)
  else ({ s with quitReason := .sessionRequestUnknown }, .unknown)

/-- What the call writes, `*target_out` if there is one, and the result. -/
abbrev SessionRequestResult := SessionRequest × Option Target × ErrorCode

/-- `session_thread_request_session` from where it has parsed the response. -/
def sessionRequestResponse (info : SessionConnectInfo) (charSigned : Bool) (s : SessionRequest)
    (targetOut : Option Target) (rpVersionStr : Bytes) (response : SessionResponse) :
    Except Fault SessionRequestResult := do
  match response.success, response.nonce with
  | true, some nonce =>
    let (bytes, nonceLen, err) ← base64Decode charSigned (nonce.bytes ++ [0]) nonce.bytes.length s.nonce
      rpcryptKeySize
    let s := { s with nonce := bytes }
    if err ≠ .success ∨ nonceLen ≠ rpcryptKeySize then
      return ({ s with quitReason := .sessionRequestUnknown }, targetOut, .unknown)
    else return (s, targetOut, .success)
  | _, _ =>
    match targetOut, response.rpVersion with
    | some _, some rpVersion =>
      if (response.errorCode = rpApplicationReasonRpVersion ∨ response.errorCode = rpApplicationReasonUnknown)
          ∧ rpVersionStr ≠ rpVersion.bytes then
        let (s, target) := sessionVersionTarget info s rpVersion.bytes
        return (s, some target, .versionMismatch)
      else
        let (s, err) := sessionApplicationReason s response.errorCode
        return (s, targetOut, err)
    | _, _ =>
      let (s, err) := sessionApplicationReason s response.errorCode
      return (s, targetOut, err)

/-- `session_thread_request_session`, or `none` while it waits for the response. -/
def sessionThreadRequestSession (info : SessionConnectInfo) (env : SessionRequestEnv) (s : SessionRequest)
    (targetOut : Option Target) : Except Fault (Option SessionRequestResult) := do
  let (s, connected) := sessionRequestConnect s env.addresses
  let failed : SessionRequest := { s with quitReason := .sessionRequestUnknown }
  if connected = false then
    return some (if s.quitReason = .none then failed else s, targetOut, .network)
  else
    let (registKeyHex, err) := formatHex (env.stack (rpcryptKeySize * 2 + 1)) (info.registKey.takeWhile fun c => c ≠ 0)
    if err ≠ .success then return some (failed, targetOut, .unknown)
    else
      match rpVersionString s.target, CString.read registKeyHex 0 with
      | none, _ => return some (failed, targetOut, .invalidData)
      | _, none => throw .outOfBounds
      | some rpVersionStr, some registKeyHex =>
        let request := sessionRequestText s registKeyHex.bytes rpVersionStr
        if sessionRequestBufSize ≤ request.length then return some (failed, targetOut, .unknown)
        else if env.sent < 0 then return some (failed, targetOut, .network)
        else
          let (header, result) := recvHttpHeader true sessionRequestBufSize env.rounds
          let buf ← recvWrite (splice (env.stack sessionRequestBufSize) 0 (request ++ [0])) header.calls env.rounds
          match result with
          | .waiting => return none
          | .error err =>
            return some (if err = .canceled then { s with quitReason := .stopped } else failed, targetOut, .network)
          | .success headerSize =>
            let (buf, httpResponse) ← httpResponseParse env.mallocHeader buf headerSize
            match httpResponse with
            | .error _ => return some (failed, targetOut, .network)
            | .ok httpResponse =>
              match readHeaders buf httpResponse.headers with
              | none => throw .outOfBounds
              | some headers =>
                let result ← sessionRequestResponse info env.charSigned s targetOut rpVersionStr
                  (parseSessionResponse httpResponse.code headers)
                return some result

end Chiaki
