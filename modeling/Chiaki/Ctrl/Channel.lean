import Chiaki.Ctrl.Thread

/-!
# A ctrl channel

One side sends messages with `ctrl_message_send`, the ctrl thread of the other side gets the stream
of bytes, in chunks. What the receiver sends itself goes the other way, and is not looked at.

`sent` and `dispatched` are histories of messages in the clear, oldest first. Each message stands
with the counter behind it: `crypt_counter_local` of the sender, `crypt_counter_remote` of the
receiver.
-/

namespace Chiaki

open Infra

variable {m n : Nat} (rpcrypt : RPCrypt)

/-! ## Messages in the clear -/

/-- The payload that `ctrl_message_received` comes to its `switch` with, if it comes there. -/
def ctrlMessagePlain (s : Ctrl n) (payloadSize : Nat) : Option Bytes :=
  if payloadSize = 0 then some []
  else if ctrlRecvBufSize < 8 + payloadSize then none
  else
    match rpcrypt.decrypt s.cryptCounterRemote (slice s.recvBuf.toList 8 payloadSize) with
    | .error _ => none
    | .ok plain => some plain

/-- The state in which it comes there. -/
def ctrlMessageDecrypted (s : Ctrl n) (plain : Bytes) : Ctrl n :=
  if plain = [] then s
  else { s with
    cryptCounterRemote := s.cryptCounterRemote + 1
    recvBuf := s.recvBuf.write 8 plain }

/-- The message that a round of the loop over the frames dispatches. -/
def ctrlRoundMessage (s : Ctrl n) : Option CtrlMessage :=
  let payloadSize := u32At s.recvBuf.toList 0
  if s.recvBufSize < 8 ∨ s.recvBufSize < (8 + payloadSize) % 2 ^ 32 then none
  else (ctrlMessagePlain rpcrypt s payloadSize).map fun plain => ⟨u16At s.recvBuf.toList 4, plain⟩

/-! ## The system -/

structure CtrlChannel (m n : Nat) where
  sender : Ctrl m
  receiver : Ctrl n
  sent : List (CtrlMessage × Nat)
  dispatched : List (CtrlMessage × Nat)

def CtrlEvent.bytes? : CtrlEvent → Option Bytes
  | .send message => some message
  | _ => none

/-- Everything that was sent so far. -/
def CtrlChannel.wire (s : CtrlChannel m n) : Bytes :=
  (s.sender.log.filterMap CtrlEvent.bytes?).reverse.flatten

/-- The largest payload that fits into `recv_buf` with its header. -/
def ctrlPayloadSizeMax : Nat := 504

/-- `ctrl_message_send` does not fail: the payload can be encrypted, if there is one. -/
def ctrlMessageSendSucceeds (s : Ctrl m) (payload : Bytes) : Bool :=
  payload.isEmpty || (rpcrypt.encrypt s.cryptCounterLocal payload).isOk

inductive CtrlChannelLabel (n : Nat)
  | send (type : UInt16) (payload : Bytes)
  | receive (l : CtrlLabel n)

/-- What comes to the receiver is the stream, from its beginning, and the counters start equal. -/
def CtrlChannel.arrives (s : CtrlChannel m n) (start : Nat) (receiver : Ctrl n) :
    CtrlLabel n → Bool
  | .connected _ cryptCounterRemote _ =>
    receiver.received.isPrefixOf s.wire && cryptCounterRemote == start
  | _ => receiver.received.isPrefixOf s.wire

/-- The message that a step of the receiver dispatches. -/
def ctrlStepMessage (s : Ctrl n) : CtrlLabel n → Option CtrlMessage
  | .round => ctrlRoundMessage rpcrypt s
  | _ => none

/-- `start` is the counter of the sender at the beginning of the stream. -/
def ctrlChannelStep (start : Nat) (s : CtrlChannel m n) :
    CtrlChannelLabel n → Option (CtrlChannel m n)
  | .send type payload =>
    if payload.length ≤ ctrlPayloadSizeMax && ctrlMessageSendSucceeds rpcrypt s.sender payload then
      let sender := ctrlMessageSend rpcrypt s.sender type.toNat payload
      some { s with
        sender := sender
        sent := s.sent ++ [(⟨type.toNat, payload⟩, sender.cryptCounterLocal)] }
    else none
  | .receive l =>
    (ctrlStep rpcrypt s.receiver l).bind fun receiver =>
      if s.arrives start receiver l then
        some { s with
          receiver := receiver
          dispatched := s.dispatched ++
            ((ctrlStepMessage rpcrypt s.receiver l).map fun message =>
              (message, receiver.cryptCounterRemote)).toList }
      else none

/-- Nothing has been sent, and the receiver has not connected. -/
def CtrlChannelInitial (start : Nat) (s : CtrlChannel m n) : Prop :=
  s.sender.cryptCounterLocal = start ∧ s.sender.log = [] ∧ CtrlInitial s.receiver ∧ s.sent = [] ∧
    s.dispatched = []

def ctrlChannelLts (m n start : Nat) : Lts (CtrlChannel m n) (CtrlChannelLabel n) :=
  Lts.ofFun (CtrlChannelInitial start) (ctrlChannelStep rpcrypt start)

end Chiaki
