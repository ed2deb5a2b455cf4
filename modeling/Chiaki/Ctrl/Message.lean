import Chiaki.Takion.Packet

/-!
# Ctrl messages (`ctrl.c`)

The state of a `ChiakiCtrl`, how it sends a message, and what it does with one that it received,
handler by handler.

The cipher of the session is a parameter. A payload is decrypted in place, so it is a part of
`recv_buf`. Of the session there is what the ctrl thread reads and writes; whether the socket
takes what is sent is not looked at in the source, and not modelled.
-/

namespace Chiaki

/-! ## Types -/

/-- `CtrlMessageType`, for the messages that are received. -/
inductive CtrlMessageType
  | sessionId
  | heartbeatReq
  | loginPinReq
  | login
  | keyboardOpen
  | keyboardTextChangeRes
  | keyboardCloseRemote
  deriving DecidableEq, Repr

def CtrlMessageType.ofNat? : Nat → Option CtrlMessageType
  | 0x33 => some .sessionId
  | 0xfe => some .heartbeatReq
  | 0x4 => some .loginPinReq
  | 0x5 => some .login
  | 0x21 => some .keyboardOpen
  | 0x24 => some .keyboardTextChangeRes
  | 0x22 => some .keyboardCloseRemote
  | _ => none

/-- `CTRL_MESSAGE_TYPE_HEARTBEAT_REP` -/
def ctrlMessageTypeHeartbeatRep : Nat := 0x1fe

/-- `CTRL_MESSAGE_TYPE_LOGIN_PIN_REP` -/
def ctrlMessageTypeLoginPinRep : Nat := 0x8004

/-- `CTRL_MESSAGE_TYPE_KEYBOARD_ENABLE_TOGGLE` -/
def ctrlMessageTypeKeyboardEnableToggle : Nat := 0x20

/-- `sizeof(CtrlKeyboardOpenMessage)`, with `text_length` at `0x1c`. -/
def ctrlKeyboardOpenMessageSize : Nat := 0x20

/-- `sizeof(CtrlKeyboardTextResponseMessage)`, with `text_length1` at `8`. -/
def ctrlKeyboardTextResponseMessageSize : Nat := 0x28

/-- `CHIAKI_SESSION_ID_SIZE_MAX` -/
def sessionIdSizeMax : Nat := 80

/-- `chiaki_rpcrypt_encrypt` and `chiaki_rpcrypt_decrypt` for the keys of a session, with the
counter as first argument: a stream cipher. -/
structure RPCrypt where
  encrypt : Nat → Bytes → Except ErrorCode Bytes
  decrypt : Nat → Bytes → Except ErrorCode Bytes
  length_encrypt : ∀ counter plain enc, encrypt counter plain = .ok enc → enc.length = plain.length
  length_decrypt : ∀ counter enc plain, decrypt counter enc = .ok plain → plain.length = enc.length

/-- `ChiakiCtrlMessageQueue`: a message that waits to be sent. -/
structure CtrlMessage where
  type : Nat
  payload : Bytes
  deriving DecidableEq, Repr

/-- The values of `ChiakiQuitReason` that the ctrl thread sets, and the one it starts with. -/
inductive CtrlQuitReason
  | none
  | ctrlUnknown
  | ctrlConnectFailed
  deriving DecidableEq, Repr

/-- What the ctrl thread reads and writes in its `ChiakiSession`. -/
structure CtrlSession where
  enableDualsense : Bool
  enableKeyboard : Bool
  sessionId : Bytes
  ctrlSessionIdReceived : Bool
  ctrlLoginPinRequested : Bool
  ctrlFailed : Bool
  quitReason : CtrlQuitReason

/-- What the ctrl thread has done. -/
inductive CtrlEvent
  | dispatch (recvBufSize msgType payloadSize : Nat) (payload : Bytes)
  | send (message : Bytes)
  | keyboardOpen (text : Option Bytes)
  | keyboardTextChange (text : Option Bytes)
  | keyboardRemoteClose
  deriving DecidableEq, Repr

/-- What `chiaki_stop_pipe_select_single` returns. -/
inductive CtrlSelect
  | canceled
  | success
  | unknown
  deriving DecidableEq, Repr

/--
Where `ctrl_thread_func` stands: before it and in `chiaki_stop_pipe_connect`, in the loop over the
frames in `recv_buf`, or in what comes around it. It does not hold `notif_mutex` in `init`,
`connecting`, `select`, `selected` and `exited`.
-/
inductive CtrlPc
  | init
  | connecting
  | loop
  | overflow
  | select
  | selected (err : CtrlSelect)
  | canceled (msgQueueUpdated : Bool)
  | reset
  | recv
  | exited
  | fault (f : Fault)
  deriving DecidableEq, Repr

/-! ## The receive buffer -/

/-- `sizeof(ctrl->recv_buf)` -/
def ctrlRecvBufSize : Nat := 512

/-- `recv_buf` -/
abbrev CtrlRecvBuf := Vector UInt8 ctrlRecvBufSize

/-- Bytes are copied to an offset in the buffer. -/
def CtrlRecvBuf.write (buf : CtrlRecvBuf) (off : Nat) (data : Bytes) : CtrlRecvBuf :=
  Vector.ofFn fun i =>
    if off ≤ i ∧ i < off + data.length then data.getD (i - off) 0 else buf.get i

/-- `memmove` of `n` bytes to the beginning of the buffer. -/
def CtrlRecvBuf.memmove (buf : CtrlRecvBuf) (src n : Nat) : CtrlRecvBuf :=
  Vector.ofFn fun i => if i < n then buf.toList.getD (src + i) 0 else buf.get i

/-! ## The state -/

/-- `ChiakiCtrl`, with its thread, and `n` threads that call `chiaki_ctrl_send_message`: each may
have a message in the queue for which it has not signaled yet. -/
structure Ctrl (n : Nat) where
  session : CtrlSession
  shouldStop : Bool
  loginPinEntered : Bool
  loginPin : Bytes
  msgQueue : List CtrlMessage
  notifPipe : Bool
  loginPinRequested : Bool
  recvBuf : CtrlRecvBuf
  recvBufSize : Nat
  cryptCounterLocal : Nat
  cryptCounterRemote : Nat
  thread : CtrlPc
  callers : Fin n → Option CtrlMessage
  received : Bytes
  log : List CtrlEvent

variable {n : Nat} (rpcrypt : RPCrypt)

/-! ## Sending -/

/-- The header of a message. -/
def ctrlMessageHeader (type payloadSize : Nat) : Bytes := be32 payloadSize ++ be16 type ++ [0, 0]

/-- `ctrl_message_send` -/
def ctrlMessageSend (s : Ctrl n) (type : Nat) (payload : Bytes) : Ctrl n :=
  if payload = [] then { s with log := .send (ctrlMessageHeader type 0) :: s.log }
  else
    match rpcrypt.encrypt s.cryptCounterLocal payload with
    | .error _ => { s with cryptCounterLocal := s.cryptCounterLocal + 1 }
    | .ok enc =>
      { s with
        cryptCounterLocal := s.cryptCounterLocal + 1
        log := .send (ctrlMessageHeader type payload.length ++ enc) :: s.log }

/-- `ctrl_enable_optional_features` -/
def ctrlEnableOptionalFeatures (s : Ctrl n) : Ctrl n :=
  let s := if s.session.enableDualsense then ctrlMessageSend rpcrypt s 0x13 [0x00, 0x40, 0x00] else s
  if s.session.enableKeyboard then
    let preEnable := [0x00, 0x01, 0x01, 0x80]
    let signature := [0x00, 0x00, 0x00, 0x01, 0x00, 0x00, 0x05, 0xAE, 0x00, 0x00, 0x00, 0x00, 0x00,
      0x00, 0x00, 0x00]
    let s := ctrlMessageSend rpcrypt s 0xD signature
    let s := ctrlMessageSend rpcrypt s 0x36 preEnable
    let s := ctrlMessageSend rpcrypt s ctrlMessageTypeKeyboardEnableToggle [1]
    ctrlMessageSend rpcrypt s 0x36 preEnable
  else s

/-! ## Handlers -/

/-- The characters of a session id: letters and digits. -/
def isSessionIdChar (c : UInt8) : Bool :=
  (0x61 ≤ c && c ≤ 0x7a) || (0x41 ≤ c && c ≤ 0x5a) || (0x30 ≤ c && c ≤ 0x39)

/-- `ctrl_message_received_session_id`. An invalid id is logged as a string: up to the next zero. -/
def ctrlMessageReceivedSessionId (s : Ctrl n) (payload : Bytes) : Except Fault (Ctrl n) :=
  if s.session.ctrlSessionIdReceived then .ok s
  else if payload.length < 2 then
    if (s.recvBuf.toList.drop 8).contains 0 then .ok s else .error .outOfBounds
  else
    let payload := payload.drop 1
    if payload.length ≥ sessionIdSizeMax - 1 then .ok s
    else if !payload.all isSessionIdChar then .ok s
    else .ok { s with session := { s.session with sessionId := payload, ctrlSessionIdReceived := true } }

/-- `ctrl_message_received_heartbeat_req` -/
def ctrlMessageReceivedHeartbeatReq (s : Ctrl n) : Ctrl n :=
  ctrlMessageSend rpcrypt s ctrlMessageTypeHeartbeatRep []

/-- `ctrl_message_received_login_pin_req` -/
def ctrlMessageReceivedLoginPinReq (s : Ctrl n) : Ctrl n :=
  { s with
    loginPinRequested := true
    session := { s.session with ctrlLoginPinRequested := true } }

/-- `ctrl_message_received_login`. State 0 is success, and state 1 an incorrect PIN. -/
def ctrlMessageReceivedLogin (s : Ctrl n) (payload : Bytes) : Ctrl n :=
  match payload with
  | [] => s
  | state :: _ =>
    if state = 0 then { s with loginPinRequested := false }
    else if state = 1 ∧ s.loginPinRequested then
      { s with session := { s.session with ctrlLoginPinRequested := true } }
    else s

/-- A message of `size` bytes and a text behind them, the length of which is at `off`: the length
is swapped in place, and the text copied. The lengths are checked by assertions. -/
def ctrlMessageText (s : Ctrl n) (payload : Bytes) (size off : Nat) :
    Except Fault (Ctrl n × Option Bytes) :=
  if payload.length < size then .error .assertion
  else
    let textLength := u32At payload off
    let s := { s with recvBuf := s.recvBuf.write (8 + off) (slice payload off 4).reverse }
    if payload.length ≠ size + textLength then .error .assertion
    else .ok (s, if textLength > 0 then some (slice payload size textLength) else none)

/-- `ctrl_message_received_keyboard_open` -/
def ctrlMessageReceivedKeyboardOpen (s : Ctrl n) (payload : Bytes) : Except Fault (Ctrl n) := do
  let (s, text) ← ctrlMessageText s payload ctrlKeyboardOpenMessageSize 0x1c
  return { s with log := .keyboardOpen text :: s.log }

/-- `ctrl_message_received_keyboard_text_change` -/
def ctrlMessageReceivedKeyboardTextChange (s : Ctrl n) (payload : Bytes) : Except Fault (Ctrl n) := do
  let (s, text) ← ctrlMessageText s payload ctrlKeyboardTextResponseMessageSize 8
  return { s with log := .keyboardTextChange text :: s.log }

/-- `ctrl_message_received_keyboard_close` -/
def ctrlMessageReceivedKeyboardClose (s : Ctrl n) : Ctrl n :=
  { s with log := .keyboardRemoteClose :: s.log }

/-- The `switch` of `ctrl_message_received`. -/
def ctrlMessageHandle (s : Ctrl n) (msgType : Nat) (payload : Bytes) : Except Fault (Ctrl n) :=
  match CtrlMessageType.ofNat? msgType with
  | some .sessionId => do
    let s ← ctrlMessageReceivedSessionId s payload
    return ctrlEnableOptionalFeatures rpcrypt s
  | some .heartbeatReq => .ok (ctrlMessageReceivedHeartbeatReq rpcrypt s)
  | some .loginPinReq => .ok (ctrlMessageReceivedLoginPinReq s)
  | some .login => .ok (ctrlMessageReceivedLogin s payload)
  | some .keyboardOpen => ctrlMessageReceivedKeyboardOpen s payload
  | some .keyboardTextChangeRes => ctrlMessageReceivedKeyboardTextChange s payload
  | some .keyboardCloseRemote => .ok (ctrlMessageReceivedKeyboardClose s)
  | none => .ok s

/-- `ctrl_message_received` for the payload at `recv_buf + 8`, which is decrypted in place. -/
def ctrlMessageReceived (s : Ctrl n) (msgType payloadSize : Nat) : Except Fault (Ctrl n) :=
  if payloadSize = 0 then ctrlMessageHandle rpcrypt s msgType []
  else if ctrlRecvBufSize < 8 + payloadSize then .error .outOfBounds
  else
    let payload := slice s.recvBuf.toList 8 payloadSize
    let s' := { s with cryptCounterRemote := s.cryptCounterRemote + 1 }
    match rpcrypt.decrypt s.cryptCounterRemote payload with
    | .error _ => .ok s'
    | .ok plain => ctrlMessageHandle rpcrypt { s' with recvBuf := s.recvBuf.write 8 plain } msgType plain

end Chiaki
