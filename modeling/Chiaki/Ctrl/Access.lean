import Chiaki.Ctrl.Message

/-!
# What the handlers of ctrl messages do with a payload (`ctrl.c`)

The steps of a handler, in their order: the bytes of the payload that it reads or writes, its assertions, and
what it does with a length from the payload. What it does besides is in `Chiaki.Ctrl.Message`.

A handler has a pointer into `recv_buf`, so it can reach what is behind the payload.
-/

namespace Chiaki

/-- `ChiakiLogLevel`, for what is logged of a payload. -/
inductive CtrlLogLevel
  | verbose
  | warning
  | error
  deriving DecidableEq, Repr

/-- Whether there are assertions in the program, the width of a `size_t`, which levels are logged, and for which
sizes there is memory. -/
structure CtrlBuild where
  ndebug : Bool
  sizeBits : Nat
  logs : CtrlLogLevel → Bool
  malloc : Nat → Bool

/-- A step of a handler. `size` is a sum with a length of the payload, as it should be and as it is computed,
`check` the comparison of a length with `payload_size`, and `use` any other use of a length. -/
inductive PayloadStep
  | access (off size : Nat)
  | assertion (holds : Bool)
  | size (sum computed : Nat)
  | check (textLength : Nat)
  | use (textLength : Nat)
  deriving DecidableEq, Repr

variable (b : CtrlBuild)

/-- `assert`, and what is behind it. -/
def assertSteps (holds : Bool) (rest : List PayloadStep) : List PayloadStep :=
  if b.ndebug then rest else .assertion holds :: if holds then rest else []

/-- `chiaki_log_hexdump` of the payload. -/
def hexdumpSteps (level : CtrlLogLevel) (payloadSize : Nat) : List PayloadStep :=
  if b.logs level then [.access 0 payloadSize] else []

/-- The memory from the payload on. -/
def CtrlRecvBuf.payload (buf : CtrlRecvBuf) : Bytes := buf.toList.drop 8

/-- `ctrl_message_received_session_id`. An id that is too short is logged as a string. -/
def ctrlSessionIdSteps (received : Bool) (buf : CtrlRecvBuf) (payloadSize : Nat) : List PayloadStep :=
  if received then []
  else if payloadSize < 2 then
    if b.logs .error then [.access 0 (buf.payload.findIdx (· == 0) + 1)] else []
  else
    .access 0 1 :: (if u8At buf.payload 0 ≠ 0x4a then hexdumpSteps b .warning payloadSize else [])
      ++ if payloadSize - 1 ≥ sessionIdSizeMax - 1 then []
        else
          let chars := slice buf.payload 1 (payloadSize - 1)
          -- the loop ends with the first character that is not allowed
          .access 1 (min (chars.findIdx (!isSessionIdChar ·) + 1) (payloadSize - 1))
            :: if chars.all isSessionIdChar then [.access 1 (payloadSize - 1)] else []

/-- `ctrl_message_received_login` -/
def ctrlLoginSteps (payloadSize : Nat) : List PayloadStep :=
  if payloadSize < 1 then [] else [.access 0 1]

/-- The text is copied out of the payload. -/
def ctrlTextCopySteps (textLength size : Nat) : List PayloadStep :=
  if textLength > 0 then
    let bufferSize := (textLength + 1) % 2 ^ b.sizeBits
    .use textLength :: .size (textLength + 1) bufferSize
      :: if b.malloc bufferSize then [.access size textLength] else []
  else []

/-- A message of `size` bytes and a text behind them, the length of which is at `off`. -/
def ctrlTextSteps (buf : CtrlRecvBuf) (payloadSize size off : Nat) : List PayloadStep :=
  assertSteps b (decide (payloadSize ≥ size)) <|
    .access off 4 ::
      let textLength := u32At buf.payload off
      let sum := (size + textLength) % 2 ^ b.sizeBits
      if b.ndebug then ctrlTextCopySteps b textLength size
      else .size (size + textLength) sum :: .check textLength
        :: assertSteps b (decide (payloadSize = sum)) (ctrlTextCopySteps b textLength size)

/-- `ctrl_message_received_keyboard_open` -/
def ctrlKeyboardOpenSteps (buf : CtrlRecvBuf) (payloadSize : Nat) : List PayloadStep :=
  ctrlTextSteps b buf payloadSize ctrlKeyboardOpenMessageSize 0x1c

/-- `ctrl_message_received_keyboard_text_change` -/
def ctrlKeyboardTextChangeSteps (buf : CtrlRecvBuf) (payloadSize : Nat) : List PayloadStep :=
  ctrlTextSteps b buf payloadSize ctrlKeyboardTextResponseMessageSize 8

/-- The `switch` of `ctrl_message_received`. The other handlers do not look at the payload. -/
def ctrlMessageHandleSteps (received : Bool) (buf : CtrlRecvBuf) (msgType payloadSize : Nat) :
    List PayloadStep :=
  match CtrlMessageType.ofNat? msgType with
  | some .sessionId => ctrlSessionIdSteps b received buf payloadSize
  | some .heartbeatReq => []
  | some .loginPinReq => []
  | some .login => ctrlLoginSteps payloadSize
  | some .keyboardOpen => ctrlKeyboardOpenSteps b buf payloadSize
  | some .keyboardTextChangeRes => ctrlKeyboardTextChangeSteps b buf payloadSize
  | some .keyboardCloseRemote => []
  | none => hexdumpSteps b .warning payloadSize

/-- `ctrl_message_received` for a payload that can be decrypted, which is done in place. `buf` is what comes of it. -/
def ctrlMessageSteps (received : Bool) (buf : CtrlRecvBuf) (msgType payloadSize : Nat) : List PayloadStep :=
  (if payloadSize > 0 then .access 0 payloadSize :: hexdumpSteps b .verbose payloadSize else [])
    ++ ctrlMessageHandleSteps b received buf msgType payloadSize

end Chiaki
