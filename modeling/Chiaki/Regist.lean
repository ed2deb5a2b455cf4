import Chiaki.Ctrl.Message
import Chiaki.Hex
import Chiaki.Http
import Chiaki.Http.Response

/-!
# The response to a registration (`regist.c`)

The response is received into a buffer of 512 bytes, its content is decrypted in place, and the content is
a list of HTTP headers with the keys of the console.
-/

namespace Chiaki

open Infra

/-- `ChiakiTarget` -/
inductive Target
  | ps4Unknown
  | ps48
  | ps49
  | ps410
  | ps5Unknown
  | ps51
  deriving DecidableEq, Repr

/-- `chiaki_target_is_ps5` -/
def Target.isPs5 : Target → Bool
  | .ps5Unknown | .ps51 => true
  | _ => false

/-- `ChiakiRegisteredHost`. An array is a list of its size. -/
structure RegisteredHost where
  target : Target
  apSsid : Bytes
  apBssid : Bytes
  apKey : Bytes
  apName : Bytes
  serverMac : Bytes
  serverNickname : Bytes
  rpRegistKey : Bytes
  rpKeyType : Nat
  rpKey : Bytes
  deriving DecidableEq

/-! ## The payload -/

/-- `COPY_STRING`: a string that fits is copied with its NUL, and what is behind it stays. -/
def copyString (name : Bytes) (value : CString) : Bytes :=
  if value.bytes.length ≥ name.length then name else splice name 0 (value.bytes ++ [0])

/-- The variables of the loop of `regist_parse_response_payload`. -/
structure RegistPayload where
  host : RegisteredHost
  macFound : Bool
  registKeyFound : Bool
  keyFound : Bool
  deriving DecidableEq

/-- The branch of the loop for `RegistKey`. -/
def registParseRegistKey (s : RegistPayload) (value : CString) : RegistPayload :=
  let zeros := List.replicate s.host.rpRegistKey.length 0
  let parsed := parseHex zeros value.bytes
  if parsed.2.2 ≠ .success then { s with host.rpRegistKey := zeros }
  else { s with host.rpRegistKey := parsed.1, registKeyFound := true }

/-- The branch of the loop for `RP-Key`. -/
def registParseKey (s : RegistPayload) (value : CString) : RegistPayload :=
  let parsed := parseHex s.host.rpKey value.bytes
  if parsed.2.2 ≠ .success ∨ parsed.2.1 ≠ s.host.rpKey.length then
    { s with host.rpKey := List.replicate s.host.rpKey.length 0 }
  else { s with host.rpKey := parsed.1, keyFound := true }

/-- The branch of the loop for `Mac`. -/
def registParseMac (s : RegistPayload) (value : CString) : RegistPayload :=
  let parsed := parseHex s.host.serverMac value.bytes
  if parsed.2.2 ≠ .success ∨ parsed.2.1 ≠ s.host.serverMac.length then
    { s with host.serverMac := List.replicate s.host.serverMac.length 0 }
  else { s with host.serverMac := parsed.1, macFound := true }

/-- One header in the loop of `regist_parse_response_payload`. -/
def registParseHeader (ps5 : Bool) (s : RegistPayload) (header : HttpHeader) : RegistPayload :=
  if header.key.bytes = ascii "AP-Ssid" then
    { s with host.apSsid := copyString s.host.apSsid header.value }
  else if header.key.bytes = ascii "AP-Bssid" then
    { s with host.apBssid := copyString s.host.apBssid header.value }
  else if header.key.bytes = ascii "AP-Key" then
    { s with host.apKey := copyString s.host.apKey header.value }
  else if header.key.bytes = ascii "AP-Name" then
    { s with host.apName := copyString s.host.apName header.value }
  else if header.key.bytes = ascii (if ps5 then "PS5-Nickname" else "PS4-Nickname") then
    { s with host.serverNickname := copyString s.host.serverNickname header.value }
  else if header.key.bytes = ascii (if ps5 then "PS5-RegistKey" else "PS4-RegistKey") then
    registParseRegistKey s header.value
  else if header.key.bytes = ascii "RP-KeyType" then
    { s with host.rpKeyType := StrTo.strtoull 0 header.value.bytes % 2 ^ 32 }
  else if header.key.bytes = ascii "RP-Key" then registParseKey s header.value
  else if header.key.bytes = ascii (if ps5 then "PS5-Mac" else "PS4-Mac") then registParseMac s header.value
  else s

/-- `memset(host, 0, sizeof(*host))`, and the target. -/
def RegisteredHost.cleared (target : Target) : RegisteredHost where
  target := target
  apSsid := List.replicate 0x30 0
  apBssid := List.replicate 0x20 0
  apKey := List.replicate 0x50 0
  apName := List.replicate 0x20 0
  serverMac := List.replicate 6 0
  serverNickname := List.replicate 0x20 0
  rpRegistKey := List.replicate 0x10 0
  rpKeyType := 0
  rpKey := List.replicate 0x10 0

/-- `regist_parse_response_payload` from where it has the headers. -/
def registParseHeaders (target : Target) (headers : List HttpHeader) : RegisteredHost × ErrorCode :=
  let s := headers.foldl (registParseHeader target.isPs5) ⟨.cleared target, false, false, false⟩
  if s.registKeyFound = false then (s.host, .invalidResponse)
  else if s.keyFound = false then (s.host, .invalidResponse)
  else if s.macFound = false then (s.host, .invalidResponse)
  else (s.host, .success)

/-- `regist_parse_response_payload` -/
def registParseResponsePayload (malloc : Nat → Bool) (target : Target) (host : RegisteredHost) (mem : Bytes)
    (buf bufSize : Nat) : Except Fault (RegisteredHost × ErrorCode) := do
  let (mem, entries) ← httpHeaderParse malloc mem buf bufSize
  match entries with
  | .error err => return (host, err)
  | .ok entries =>
    match readHeaders mem entries with
    | none => throw .outOfBounds
    | some headers => return registParseHeaders target headers

/-! ## Receiving it -/

/-- `sizeof(buf)` -/
def registBufSize : Nat := 0x200

/-- `regist_recv_response` where it calls `chiaki_rpcrypt_decrypt`. -/
structure RegistReceived where
  buf : Bytes
  bufFilledSize : Nat
  headerSize : Nat
  deriving DecidableEq

/-- How far the function has come: it waits for another result, it has returned, or it decrypts. -/
inductive RegistRecvResult
  | waiting
  | error (err : ErrorCode)
  | decrypt (received : RegistReceived)
  deriving DecidableEq

/-- The size of the content: what the last `Content-Length` of the list says. -/
def registContentSize (headers : List HttpHeader) : Nat :=
  headers.foldl (fun contentSize header =>
    if header.key.bytes = ascii "Content-Length" then StrTo.strtoull 0 header.value.bytes else contentSize) 0

/-- The loop that receives the rest of the content. `recv` writes no more than it is asked for. -/
def registRecvLoop (size : Nat) : RegistReceived → List RecvRound → Except Fault RegistRecvResult
  | s, [] => .ok (if s.bufFilledSize < size then .waiting else .decrypt s)
  | s, round :: rounds =>
    if s.bufFilledSize < size then
      if round.select ≠ .success then .ok (.error round.select)
      else
        match round.recv with
        | .failed => .ok (.error .network)
        | .received data _ =>
          let data := data.take (size - s.bufFilledSize)
          if data.length = 0 then .ok (.error .network)
          else if s.buf.length < s.bufFilledSize + data.length then .error .outOfBounds
          else
            registRecvLoop size
              { s with
                buf := splice s.buf s.bufFilledSize data
                bufFilledSize := s.bufFilledSize + data.length } rounds
    else .ok (.decrypt s)

/-- `regist_recv_response` up to `chiaki_rpcrypt_decrypt`. -/
def registRecvContent (malloc : Nat → Bool) (buf : Bytes) (rounds : List RecvRound) :
    Except Fault RegistRecvResult := do
  let (s, result) := recvHttpHeader true registBufSize rounds
  let buf ← recvWrite buf s.calls rounds
  match result with
  | .waiting => return .waiting
  | .error err => return .error err
  | .success headerSize =>
    let (buf, httpResponse) ← httpResponseParse malloc buf headerSize
    match httpResponse with
    | .error err => return .error err
    | .ok httpResponse =>
      if httpResponse.code ≠ 200 then return .error .unknown
      else
        match readHeaders buf httpResponse.headers with
        | none => throw .outOfBounds
        | some headers =>
          let contentSize := registContentSize headers
          if contentSize = 0 then return .error .invalidResponse
          else if (contentSize + headerSize) % 2 ^ 64 > registBufSize then return .error .bufTooSmall
          else
            registRecvLoop ((contentSize + headerSize) % 2 ^ 64) ⟨buf, s.receivedSize, headerSize⟩
              (rounds.drop s.calls.length)

/-- `regist_recv_response`. What `chiaki_rpcrypt_decrypt` returns is not looked at. -/
def registRecvResponse (malloc malloc' : Nat → Bool) (rpcrypt : RPCrypt) (target : Target)
    (host : RegisteredHost) (buf : Bytes) (rounds : List RecvRound) :
    Except Fault (Option (RegisteredHost × ErrorCode)) := do
  match ← registRecvContent malloc buf rounds with
  | .waiting => return none
  | .error err => return some (host, err)
  | .decrypt received =>
    let payloadSize := received.bufFilledSize - received.headerSize
    let buf :=
      match rpcrypt.decrypt 0 (slice received.buf received.headerSize payloadSize) with
      | .ok payload => splice received.buf received.headerSize payload
      | .error _ => received.buf
    let (host, err) ← registParseResponsePayload malloc' target host buf received.headerSize payloadSize
    return some (host, err)

end Chiaki
