import Chiaki.Infra.Transition
import Chiaki.Takion.Packet
import Chiaki.Takion.SendBuffer

/-!
# Sending reliable messages (`takion.c`)

Any number `n` of threads run `chiaki_takion_send_message_data` while the Takion thread handles
acknowledgements and the thread of the send buffer resends. What a thread does between two
mutex operations or system calls is one step; a label says which thread moves and how the
outside answers. `malloc` and `send` may fail.

The log is a history of what happened, newest first. Packets are told apart by the id of
their heap buffer, because sequence numbers come around again.
-/

namespace Chiaki

open Infra

variable {κ : Type} {n : Nat}

/-- `TAKION_SEND_BUFFER_SIZE` -/
def takionSendBufferSize : Nat := 16

/-- `chiaki_takion_crypt_advance_key_pos`: the position handed out and the next one. -/
def takionCryptAdvanceKeyPos (gkcryptLocal : Option κ) (keyPosLocal dataSize : Nat) :
    Except ErrorCode (Nat × Nat) :=
  match gkcryptLocal with
  | none => .ok (0, keyPosLocal)
  | some _ =>
    if 2 ^ 64 - 1 - keyPosLocal < dataSize then .error .overflow
    else .ok (keyPosLocal, keyPosLocal + dataSize)

/-- The arguments of `chiaki_takion_send_message_data`. -/
structure SendArgs where
  chunkFlags : Nat
  channel : Nat
  buf : Bytes

/-- Where a thread stands in `chiaki_takion_send_message_data`. -/
inductive SendPc
  | idle
  | advanced (args : SendArgs) (keyPos : Nat)
  | allocated (args : SendArgs) (keyPos id : Nat)
  | reserved (keyPos seqNum : Nat) (packet : PacketBuf)
  | transmitted (seqNum : Nat) (packet : PacketBuf)
  | pushed (seqNum id : Nat)

/-- Where the Takion thread stands in `takion_handle_packet_message_data_ack`. -/
inductive AckPc
  | idle
  | raising (seqNum : Nat) (acked : List TakionSendBufferPacket)

/-- What happens on the sending side. -/
inductive SendEvent
  | reserve (seqNum id : Nat)
  | transmit (seqNum id : Nat)
  | push (seqNum id : Nat)
  | returned (err : ErrorCode)
  | returnedSuccess (seqNum id : Nat)
  | ack (seqNum : Nat)
  | dataAck (seqNum id : Nat)
  | ackDone (seqNum : Nat)
  | resend (packets : List Bytes)
  deriving DecidableEq, Repr

/-- The fields of `ChiakiTakion` that the sending side uses, and the threads in it. -/
structure SendState (κ : Type) (n : Nat) where
  tagRemote : Nat
  gkcryptLocal : Option κ
  keyPosLocal : Nat
  seqNumLocal : Nat
  sendBuffer : TakionSendBuffer
  nextBuf : Nat
  threads : Fin n → SendPc
  takionThread : AckPc
  log : List SendEvent

/-- What moves next. -/
inductive SendLabel (κ : Type) (n : Nat)
  | call (t : Fin n) (args : SendArgs)
  | malloc (t : Fin n) (ok : Bool)
  | reserve (t : Fin n)
  | transmit (t : Fin n) (ok : Bool)
  | push (t : Fin n) (now : Nat)
  | ret (t : Fin n)
  | ack (payload : Bytes)
  | raise
  | resend (now : Nat)
  | setCrypt (gkcryptLocal : κ)

namespace SendState

def setThread (s : SendState κ n) (t : Fin n) (pc : SendPc) : SendState κ n :=
  { s with threads := fun u => if u = t then pc else s.threads u }

def emit (s : SendState κ n) (e : SendEvent) : SendState κ n := { s with log := e :: s.log }

end SendState

open SendState

/-- After the handshake: `seq_num_local` starts at `tag_local`. -/
def sendInit (tagLocal tagRemote : Nat) : SendState κ n where
  tagRemote := tagRemote
  gkcryptLocal := none
  keyPosLocal := 0
  seqNumLocal := tagLocal
  sendBuffer := takionSendBufferInit true takionSendBufferSize
  nextBuf := 0
  threads := fun _ => .idle
  takionThread := .idle
  log := []

/-! ## `chiaki_takion_send_message_data`, step by step -/

/-- Up to the return of `chiaki_takion_crypt_advance_key_pos`. -/
def sendCall (s : SendState κ n) (t : Fin n) (args : SendArgs) : SendState κ n :=
  match takionCryptAdvanceKeyPos s.gkcryptLocal s.keyPosLocal args.buf.length with
  | .error err => s.emit (.returned err)
  | .ok (keyPos, next) => { s with keyPosLocal := next }.setThread t (.advanced args keyPos)

/-- `malloc(packet_size)`, and the header of the packet. -/
def sendMalloc (s : SendState κ n) (t : Fin n) (args : SendArgs) (keyPos : Nat) (ok : Bool) :
    SendState κ n :=
  if ok then { s with nextBuf := s.nextBuf + 1 }.setThread t (.allocated args keyPos s.nextBuf)
  else (s.emit (.returned .memory)).setThread t .idle

/-- `seq_num_local++` under its mutex, and the rest of the packet. -/
def sendReserve (s : SendState κ n) (t : Fin n) (args : SendArgs) (keyPos id : Nat) : SendState κ n :=
  let seqNum := s.seqNumLocal
  let packet := takionMessageDataPacket s.tagRemote keyPos args.chunkFlags seqNum args.channel args.buf
  ({ s with seqNumLocal := (seqNum + 1) % 2 ^ 32 }.emit (.reserve seqNum id)).setThread t
    (.reserved keyPos seqNum ⟨id, packet⟩)

/-- `chiaki_takion_send`. On an error the packet is freed. -/
def sendTransmit (gmac : κ → Nat → Bytes → Mac) (s : SendState κ n) (t : Fin n) (keyPos seqNum : Nat)
    (packet : PacketBuf) (ok : Bool) : SendState κ n :=
  match takionPacketMac gmac s.gkcryptLocal packet.bytes keyPos with
  | .error err => (s.emit (.returned err)).setThread t .idle
  | .ok (buf, _, _) =>
    if ok then (s.emit (.transmit seqNum packet.id)).setThread t (.transmitted seqNum ⟨packet.id, buf⟩)
    else (s.emit (.returned .network)).setThread t .idle

/-- `chiaki_takion_send_buffer_push`, whose result is not looked at. -/
def sendPush (s : SendState κ n) (t : Fin n) (now seqNum : Nat) (packet : PacketBuf) : SendState κ n :=
  let r := takionSendBufferPush s.sendBuffer seqNum packet now
  ({ s with sendBuffer := r.1 }.emit (.push seqNum packet.id)).setThread t (.pushed seqNum packet.id)

/-! ## The other threads -/

/-- `takion_handle_packet_message_data_ack` up to the loop over `acked_seq_nums`. -/
def sendAck (s : SendState κ n) (payload : Bytes) : SendState κ n :=
  match takionDataAckSeqNum payload with
  | none => s
  | some seqNum =>
    let r := takionSendBufferAck s.sendBuffer seqNum
    { s with sendBuffer := r.1, takionThread := .raising seqNum r.2 }.emit (.ack seqNum)

/-- One round of that loop, or its end. -/
def sendRaise (s : SendState κ n) (seqNum : Nat) : List TakionSendBufferPacket → SendState κ n
  | p :: rest => { s with takionThread := .raising seqNum rest }.emit (.dataAck p.seqNum p.buf.id)
  | [] => { s with takionThread := .idle }.emit (.ackDone seqNum)

/-- One step of the sending side. A label that does not fit where its thread stands is no
step. -/
def sendStep (gmac : κ → Nat → Bytes → Mac) (s : SendState κ n) : SendLabel κ n → Option (SendState κ n)
  | .call t args =>
    match s.threads t with
    | .idle => some (sendCall s t args)
    | _ => none
  | .malloc t ok =>
    match s.threads t with
    | .advanced args keyPos => some (sendMalloc s t args keyPos ok)
    | _ => none
  | .reserve t =>
    match s.threads t with
    | .allocated args keyPos id => some (sendReserve s t args keyPos id)
    | _ => none
  | .transmit t ok =>
    match s.threads t with
    | .reserved keyPos seqNum packet => some (sendTransmit gmac s t keyPos seqNum packet ok)
    | _ => none
  | .push t now =>
    match s.threads t with
    | .transmitted seqNum packet => some (sendPush s t now seqNum packet)
    | _ => none
  | .ret t =>
    match s.threads t with
    | .pushed seqNum id => some ((s.emit (.returnedSuccess seqNum id)).setThread t .idle)
    | _ => none
  | .ack payload =>
    match s.takionThread with
    | .idle => some (sendAck s payload)
    | .raising .. => none
  | .raise =>
    match s.takionThread with
    | .raising seqNum acked => some (sendRaise s seqNum acked)
    | .idle => none
  | .resend now =>
    let r := takionSendBufferResend s.sendBuffer now
    some ({ s with sendBuffer := r.1 }.emit (.resend r.2))
  | .setCrypt k => some { s with gkcryptLocal := some k }

/-- The sending side. -/
def sendLts (n : Nat) (gmac : κ → Nat → Bytes → Mac) : Lts (SendState κ n) (SendLabel κ n) :=
  Lts.ofFun (fun s => ∃ tagLocal tagRemote, tagLocal < 2 ^ 32 ∧ s = sendInit tagLocal tagRemote)
    (sendStep gmac)

end Chiaki
