import Chiaki.Takion.Packet

/-!
# The messages of the handshake (`takion.c`)

`takion_recv_message_init_ack` and `takion_recv_message_cookie_ack` receive into an array on the stack
that has just the size of the message. What `recv` did not fill is not part of the buffer here, so
that reading it is a fault.
-/

namespace Chiaki

/-- `TAKION_COOKIE_SIZE` -/
def takionCookieSize : Nat := 0x20

/-- `TakionMessagePayloadInitAck` -/
structure TakionMessagePayloadInitAck where
  tag : Nat
  aRwnd : Nat
  outboundStreams : Nat
  inboundStreams : Nat
  initialSeqNum : Nat
  cookie : Bytes
  deriving DecidableEq, Repr

/-- `takion_recv` into a buffer of `bufSize` bytes, for what arrives before the timeout. `recv` cuts a
datagram off at the end of the buffer. -/
def takionRecvInto (bufSize : Nat) (arrived : Except ErrorCode Bytes) : Except ErrorCode Bytes :=
  match arrived with
  | .error err => .error err
  | .ok datagram => if datagram.length = 0 then .error .network else .ok (datagram.take bufSize)

/-- The part that both functions share: a message of `size` bytes of the one type that is expected. -/
def takionRecvMessage (size : Nat) (chunkType : TakionChunkType) (tagLocal : Nat) (keyState : KeyState)
    (arrived : Except ErrorCode Bytes) :
    Except Fault (KeyState × Except ErrorCode (Bytes × TakionMessage)) :=
  match takionRecvInto size arrived with
  | .error err => .ok (keyState, .error err)
  | .ok message =>
    if message.length < size then .ok (keyState, .error .invalidResponse)
    else do
      let packetType ← readU8 message 0
      if packetType ≠ 0 then return (keyState, .error .invalidResponse)
      else
        match takionParseMessage tagLocal keyState (message.drop 1) with
        | (keyState, .error _) => return (keyState, .error .invalidResponse)
        | (keyState, .ok msg) =>
          if TakionChunkType.ofByte msg.chunkType ≠ some chunkType ∨ msg.chunkFlags ≠ 0 then
            return (keyState, .error .invalidResponse)
          else return (keyState, .ok (message, msg))

/-- `memcpy` of `n` bytes out of what was received. -/
def readBytes (buf : Bytes) (off n : Nat) : Except Fault Bytes :=
  if buf.length < off + n then .error .outOfBounds else .ok (slice buf off n)

/-- The fields of the INIT_ACK at `pl`. -/
def takionReadInitAck (message : Bytes) (pl : Nat) : Except Fault TakionMessagePayloadInitAck := do
  let tag ← readU32 message pl
  let aRwnd ← readU32 message (pl + 4)
  let outboundStreams ← readU16 message (pl + 8)
  let inboundStreams ← readU16 message (pl + 0xa)
  let initialSeqNum ← readU32 message (pl + 0xc)
  let cookie ← readBytes message (pl + 0x10) takionCookieSize
  return { tag, aRwnd, outboundStreams, inboundStreams, initialSeqNum, cookie }

/-- `takion_recv_message_init_ack`. The payload is not looked for before it is read. -/
def takionRecvMessageInitAck (tagLocal : Nat) (keyState : KeyState)
    (arrived : Except ErrorCode Bytes) :
    Except Fault (KeyState × Except ErrorCode TakionMessagePayloadInitAck) := do
  let r ← takionRecvMessage (1 + takionMessageHeaderSize + 0x10 + takionCookieSize) .initAck tagLocal
    keyState arrived
  match r.2 with
  | .error err => return (r.1, .error err)
  | .ok (message, msg) =>
    if msg.payloadSize ≠ 0x10 + takionCookieSize then .error .assertion
    else
      match msg.payload with
      | none => .error .nullPointer
      | some pl =>
        -- the message was parsed from its second byte on
        let payload ← takionReadInitAck message (1 + pl)
        return (r.1, .ok payload)

/-- `takion_recv_message_cookie_ack` -/
def takionRecvMessageCookieAck (tagLocal : Nat) (keyState : KeyState)
    (arrived : Except ErrorCode Bytes) : Except Fault (KeyState × Except ErrorCode Unit) := do
  let r ← takionRecvMessage (1 + takionMessageHeaderSize) .cookieAck tagLocal keyState arrived
  match r.2 with
  | .error err => return (r.1, .error err)
  | .ok (_, msg) =>
    if msg.payloadSize ≠ 0 then .error .assertion
    else return (r.1, .ok ())

end Chiaki
