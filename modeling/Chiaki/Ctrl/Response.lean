import Chiaki.Base64
import Chiaki.Ctrl.Message
import Chiaki.Http.Response

/-!
# The response to the ctrl request (`ctrl.c`)

`ctrl_connect` from where it has received the HTTP header of the response. The response may have a
header with the type of the console, which is encrypted and takes a counter of the console's side.
-/

namespace Chiaki

/-- `CtrlResponse` -/
structure CtrlResponse where
  serverTypeValid : Bool
  rpServerType : Bytes
  success : Bool
  deriving DecidableEq

/-- `ChiakiCodec` -/
inductive Codec
  | h264
  | h265
  | h265Hdr
  deriving DecidableEq, Repr

/-- `ChiakiConnectVideoProfile` -/
structure ConnectVideoProfile where
  width : Nat
  height : Nat
  maxFps : Nat
  bitrate : Nat
  codec : Codec
  deriving DecidableEq, Repr

/-- `sizeof(response->rp_server_type)` -/
def rpServerTypeSize : Nat := 0x10

/-- One header in the loop of `parse_ctrl_response`. What `chiaki_base64_decode` returns is not looked at,
only the size. -/
def parseCtrlHeader (charSigned : Bool) (response : CtrlResponse) (header : HttpHeader) :
    Except Fault CtrlResponse :=
  if header.key.bytes = ascii "RP-Server-Type" then do
    let (rpServerType, serverTypeSize, _) ← base64Decode charSigned (header.value.bytes ++ [0])
      (header.value.bytes.length + 1) response.rpServerType rpServerTypeSize
    return { response with
      rpServerType := rpServerType
      serverTypeValid := decide (serverTypeSize = rpServerTypeSize) }
  else return response

/-- `parse_ctrl_response` -/
def parseCtrlResponse (charSigned : Bool) (code : Int) (headers : List HttpHeader) :
    Except Fault CtrlResponse :=
  if code ≠ 200 then .ok ⟨false, List.replicate rpServerTypeSize 0, false⟩
  else headers.foldlM (parseCtrlHeader charSigned) ⟨false, List.replicate rpServerTypeSize 0, true⟩

/-- `ChiakiVideoResolutionPreset` -/
inductive VideoResolutionPreset
  | p360
  | p540
  | p720
  | p1080
  | p2160
  deriving DecidableEq, Repr

/-- `ChiakiVideoFPSPreset` -/
inductive VideoFPSPreset
  | fps30
  | fps60
  deriving DecidableEq, Repr

/-- `chiaki_connect_video_profile_preset` -/
def connectVideoProfilePreset (resolution : VideoResolutionPreset) (fps : VideoFPSPreset) :
    ConnectVideoProfile :=
  let maxFps :=
    match fps with
    | .fps30 => 30
    | .fps60 => 60
  match resolution with
  | .p360 => ⟨640, 360, maxFps, 2000, .h264⟩
  | .p540 => ⟨960, 540, maxFps, 6000, .h264⟩
  | .p720 => ⟨1280, 720, maxFps, 10000, .h264⟩
  | .p1080 => ⟨1920, 1080, maxFps, 15000, .h264⟩
  | .p2160 => ⟨3840, 2160, maxFps, 40000, .h264⟩

/-- What the type of the console changes in the video profile. -/
def downgradeVideoProfile (autoDowngrade : Bool) (serverType : UInt8) (profile : ConnectVideoProfile) :
    ConnectVideoProfile :=
  let profile :=
    if serverType = 0 ∧ autoDowngrade = true ∧ profile.height = 1080 then
      connectVideoProfilePreset .p720 (if profile.maxFps = 60 then .fps60 else .fps30)
    else profile
  if (serverType = 0 ∨ serverType = 1) ∧ profile.codec ≠ .h264 then { profile with codec := .h264 } else profile

/-- What `ctrl_connect` has changed when it returns: a counter, and a part of `connect_info`. -/
structure CtrlConnection where
  cryptCounterRemote : Nat
  videoProfile : ConnectVideoProfile
  deriving DecidableEq

/-- `ctrl_connect` from `parse_ctrl_response` on, up to what it does with the socket. The counter is
incremented before it is known whether the value can be decrypted. -/
def ctrlConnectResponse (rpcrypt : RPCrypt) (charSigned autoDowngrade : Bool) (profile : ConnectVideoProfile)
    (code : Int) (headers : List HttpHeader) : Except Fault (Except ErrorCode CtrlConnection) := do
  let response ← parseCtrlResponse charSigned code headers
  if response.success = false then return .error .unknown
  else if response.serverTypeValid = false then return .ok ⟨0, profile⟩
  else
    match rpcrypt.decrypt 0 response.rpServerType with
    | .error _ => return .ok ⟨1, profile⟩
    | .ok rpServerType =>
      return .ok ⟨1, downgradeVideoProfile autoDowngrade (rpServerType.headD 0) profile⟩

/-- `ctrl_connect` from `chiaki_http_response_parse` on: the connection, and what came behind the header. -/
def ctrlConnectReceived (malloc : Nat → Bool) (rpcrypt : RPCrypt) (charSigned autoDowngrade : Bool)
    (profile : ConnectVideoProfile) (buf : Bytes) (headerSize receivedSize : Nat) :
    Except Fault (Except ErrorCode (CtrlConnection × Bytes)) := do
  let (buf, httpResponse) ← httpResponseParse malloc buf headerSize
  match httpResponse with
  | .error err => return .error err
  | .ok httpResponse =>
    match readHeaders buf httpResponse.headers with
    | none => throw .outOfBounds
    | some headers =>
      let connection ←
        ctrlConnectResponse rpcrypt charSigned autoDowngrade profile httpResponse.code headers
      match connection with
      | .error err => return .error err
      | .ok connection =>
        if buf.length < receivedSize then throw .outOfBounds
        else return .ok (connection, slice buf headerSize (receivedSize - headerSize))

end Chiaki
