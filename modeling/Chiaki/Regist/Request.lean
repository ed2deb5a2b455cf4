import Chiaki.Base64
import Chiaki.RPCrypt
import Chiaki.Regist

/-!
# The request of a registration (`regist.c`)

The payload begins with 0x1e0 bytes in which two offsets and `aeropause` are hidden; behind them there are encrypted
headers, which say who registers. The pin is a part of the key.
-/

namespace Chiaki

open Infra

/-! ## Printing -/

/-- `snprintf` into a part of a buffer. The result cannot be larger than `INT_MAX`. -/
def snprintf (buf : Bytes) (off size : Nat) (text : Bytes) : Except Fault (Bytes × Int) :=
  let data := if size = 0 then [] else text.take (size - 1) ++ [0]
  if buf.length < off + data.length then .error .outOfBounds
  else .ok (splice buf off data, if text.length < 2 ^ 31 then text.length else -1)

/-! ## The header -/

/-- `request_path` -/
def registRequestPath : Target → Bytes
  | .ps5Unknown | .ps51 => ascii "/sie/ps5/rp/sess/rgst"
  | .ps48 | .ps49 => ascii "/sce/rp/regist"
  | _ => ascii "/sie/ps4/rp/sess/rgst"

/-- `request_head_fmt` with what is printed into it. -/
def registRequestHead (target : Target) (payloadSize : Nat) : Bytes :=
  ascii "POST " ++ registRequestPath target ++ ascii " HTTP/1.1\r\n HTTP/1.1\r\n"
    ++ ascii "HOST: 10.0.2.15\r\n"
    ++ ascii "User-Agent: remoteplay Windows\r\n"
    ++ ascii "Connection: close\r\n"
    ++ ascii "Content-Length: " ++ StrTo.unsigned payloadSize ++ ascii "\r\n"

/-- `request_tail` -/
def registRequestTail : Bytes := ascii "\r\n"

/-- `request_header_format` behind the version: the end of the header is copied with its NUL. -/
def registRequestFinish (buf : Bytes) (cur payloadSize : Nat) : Except Fault (Bytes × Int) :=
  let tail := registRequestTail ++ [0]
  if cur + tail.length > payloadSize then .ok (buf, -1)
  else if buf.length < cur + tail.length then .error .outOfBounds
  else .ok (splice buf cur tail, (cur + tail.length - 1 : Nat))

/-- `request_header_format`. What it compares with is the size of the payload, and `buf_size - cur` may wrap. -/
def registRequestHeaderFormat (buf : Bytes) (bufSize payloadSize : Nat) (target : Target) :
    Except Fault (Bytes × Int) := do
  let (buf, cur) ← snprintf buf 0 bufSize (registRequestHead target payloadSize)
  if cur < 0 ∨ cur.toNat ≥ payloadSize then return (buf, -1)
  else if target.value ≥ Target.ps49.value then
    match rpVersionString target with
    | none => throw .nullPointer
    | some rpVersion =>
      let s := (bufSize + 2 ^ 64 - cur.toNat) % 2 ^ 64
      let (buf, r) ← snprintf buf cur.toNat s (ascii "RP-Version: " ++ rpVersion ++ ascii "\r\n")
      if r < 0 ∨ r.toNat ≥ s then return (buf, -1)
      else registRequestFinish buf (cur.toNat + r.toNat) payloadSize
  else registRequestFinish buf cur.toNat payloadSize

/-! ## The payload -/

/-- `inner_header_off` -/
def registInnerHeaderOff : Nat := 0x1e0

/-- `CHIAKI_PSN_ACCOUNT_ID_SIZE` -/
def psnAccountIdSize : Nat := 8

/-- `client_type`, or `client_type_ps4_pre10` -/
def registClientType (target : Target) : Bytes :=
  if target.value < Target.ps410.value then ascii "Windows"
  else ascii "dabfa2ec873de5839bee8d3f4c0239c4282c07c25c6077a2931afcf0adc0d34f"

/-- `request_inner_online_id_fmt` with what is printed into it. -/
def registInnerOnlineId (psnOnlineId : Bytes) : Bytes :=
  ascii "Client-Type: Windows\r\n" ++ ascii "Np-Online-Id: " ++ psnOnlineId ++ ascii "\r\n"

/-- `request_inner_account_id_fmt` with what is printed into it. -/
def registInnerAccountId (clientType accountId : Bytes) : Bytes :=
  ascii "Client-Type: " ++ clientType ++ ascii "\r\n" ++ ascii "Np-AccountId: " ++ accountId ++ ascii "\r\n"

/-- What `chiaki_regist_request_payload_format` gives back. -/
structure RegistRequestPayload where
  buf : Bytes
  bufSize : Nat
  crypt : RPCryptKeys
  err : ErrorCode
  deriving DecidableEq

/-- The keys, and the first part of the payload: `buf` holds nothing but `A`. -/
def registPayloadKeys (target : Target) (ambassador : RPKey) (buf : Bytes) (pin : Nat) :
    Except Fault (Except ErrorCode (Bytes × RPCryptKeys)) := do
  if target.value < Target.ps410.value then
    let crypt := rpcryptInitRegistPs4Pre10 ambassador pin
    return .ok (splice buf 0x11c (rpcryptAeropausePs4Pre10 crypt.ambassador).toList, crypt)
  else
    let key0Off := u8At buf 0x18D &&& 0x1F
    let key1Off := u8At buf 0 >>> 3
    match ← rpcryptInitRegist target ambassador key0Off pin with
    | .error err => return .error err
    | .ok crypt =>
      match ← rpcryptAeropause target key1Off crypt.ambassador with
      | .error err => return .error err
      | .ok aeropause =>
        return .ok (splice (splice buf 0xc7 (aeropause.toList.drop 8)) 0x191 (aeropause.toList.take 8), crypt)

/-- The headers that are encrypted, from what the caller says about who registers. -/
def registInnerHeader (target : Target) (psnOnlineId : Option CString)
    (psnAccountId : Option (Vector UInt8 psnAccountIdSize)) : Except Fault (Except ErrorCode Bytes) := do
  match (if target.value < Target.ps410.value then psnOnlineId else none), psnAccountId with
  | some psnOnlineId, _ => return .ok (registInnerOnlineId psnOnlineId.bytes)
  | none, none => return .error .invalidData
  | none, some psnAccountId =>
    let accountIdSize := psnAccountIdSize * 2
    let (accountId, err) ← base64Encode psnAccountId.toList (List.replicate accountIdSize 0) accountIdSize
    if err ≠ .success then return .error err
    else
      match CString.read accountId 0 with
      | none => throw .outOfBounds
      | some accountId => return .ok (registInnerAccountId (registClientType target) accountId.bytes)

/-- `chiaki_regist_request_payload_format`, with the `crypt` of the caller. -/
def registRequestPayloadFormat (lib : CryptoLib) (target : Target) (ambassador : RPKey) (buf : Bytes) (bufSize : Nat)
    (crypt : RPCryptKeys) (psnOnlineId : Option CString) (psnAccountId : Option (Vector UInt8 psnAccountIdSize))
    (pin : Nat) : Except Fault RegistRequestPayload := do
  if bufSize < registInnerHeaderOff then return ⟨buf, bufSize, crypt, .bufTooSmall⟩
  else if buf.length < registInnerHeaderOff then throw .outOfBounds
  else
    let buf := splice buf 0 (List.replicate registInnerHeaderOff 0x41)
    match ← registPayloadKeys target ambassador buf pin with
    | .error err => return ⟨buf, bufSize, crypt, err⟩
    | .ok (buf, crypt) =>
      match ← registInnerHeader target psnOnlineId psnAccountId with
      | .error err => return ⟨buf, bufSize, crypt, err⟩
      | .ok text =>
        let size := bufSize - registInnerHeaderOff
        let (buf, innerHeaderSize) ← snprintf buf registInnerHeaderOff size text
        if innerHeaderSize < 0 ∨ innerHeaderSize.toNat ≥ size then return ⟨buf, bufSize, crypt, .bufTooSmall⟩
        else
          match rpcryptEncrypt lib crypt 0 (slice buf registInnerHeaderOff innerHeaderSize.toNat) with
          | .ok enc =>
            return ⟨splice buf registInnerHeaderOff enc, registInnerHeaderOff + innerHeaderSize.toNat, crypt, .success⟩
          | .error err => return ⟨buf, registInnerHeaderOff + innerHeaderSize.toNat, crypt, err⟩

/-! ## The other side -/

/-- The ambassador, from what `rpcryptAeropausePs4Pre10` makes of it. -/
def unhidePs4Pre10 (aeropause : RPKey) : RPKey :=
  Vector.ofFn fun i : Fin 0x10 => (aeropause.get i ^^^ (keyOfRow echoB).get i) + 0x29 + UInt8.ofNat i

/-- The ambassador, from what `rpcryptAeropause` makes of it. -/
def unhide (ps5 : Bool) (k aeropause : RPKey) : RPKey :=
  Vector.ofFn fun i : Fin 0x10 => (aeropause.get i - UInt8.ofNat i - wurzelbert ps5) ^^^ k.get i

/-- 0x10 bytes of a buffer. -/
def keyOfBytes (data : Bytes) : RPKey := Vector.ofFn fun i : Fin 0x10 => data.getD i 0

/-- The keys that a console has, which knows the pin, when it has received a payload. -/
def registReadKeys (target : Target) (pin : Nat) (payload : Bytes) : Except Fault (Except ErrorCode RPCryptKeys) := do
  if target.value < Target.ps410.value then
    return .ok (rpcryptInitRegistPs4Pre10 (unhidePs4Pre10 (keyOfBytes (slice payload 0x11c 0x10))) pin)
  else
    let k ← tableKey (if target.isPs5 then ps5Keys1 else ps4Keys1) (u8At payload 0 >>> 3)
    let aeropause := keyOfBytes (slice payload 0x191 8 ++ slice payload 0xc7 8)
    rpcryptInitRegist target (unhide target.isPs5 k aeropause) (u8At payload 0x18D &&& 0x1F) pin

end Chiaki
