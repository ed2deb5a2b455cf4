import Chiaki.Infra.Transition
import Chiaki.ReorderQueue
import Chiaki.Takion.Packet
import Chiaki.Takion.Send

/-!
# The Takion thread (`takion_thread_func`)

The receiving side of a connected `ChiakiTakion`: the queue of data packets, the packets
postponed until the keys are there, and the MAC checks.

One round of a loop that calls out, or that another round can follow, is one step:
`takion_flush_data_queue` stands still between two packets, because its callback may call
`chiaki_takion_set_crypt`. Labels carry what the outside does: the datagram, the keys that a
callback installs, whether the allocations of the step succeed.

The log is a history of what the thread did, newest first. Packet buffers and their queue
entries have the id of the datagram they came with.
-/

namespace Chiaki

open Infra

variable {κ : Type}

/-- `TAKION_REORDER_QUEUE_SIZE_EXP` -/
def takionReorderQueueSizeExp : Nat := 4

/-- `TAKION_POSTPONE_PACKETS_SIZE` -/
def takionPostponePacketsSize : Nat := 32

/-- `TAKION_A_RWND` -/
def takionARwnd : Nat := 0x19000

/-- The protocol versions that `chiaki_takion_connect` accepts. -/
inductive TakionVersion
  | v7
  | v9
  | v12
  deriving DecidableEq, Repr

/-- `takion->av_packet_parse` -/
def TakionVersion.avPacketParse : TakionVersion → KeyState → Bytes →
    Except Fault (KeyState × Except ErrorCode TakionAVPacket)
  | .v7 => takionV7AVPacketParse
  | .v9 => takionV9AVPacketParse
  | .v12 => takionV12AVPacketParse

/-- `TakionDataPacketEntry`. The payload lies inside `packetBuf`. -/
structure TakionDataPacketEntry where
  packetBuf : PacketBuf
  typeB : Nat
  payload : Nat
  payloadSize : Nat
  channel : Nat

instance : Inhabited TakionDataPacketEntry := ⟨⟨⟨0, []⟩, 0, 0, 0, 0⟩⟩

/-- The bytes that `payload` and `payload_size` stand for. -/
def TakionDataPacketEntry.payloadBytes (e : TakionDataPacketEntry) : Bytes :=
  slice e.packetBuf.bytes e.payload e.payloadSize

/-- Who called `takion_handle_packet`, and where the thread goes on afterwards. -/
inductive TakionCaller
  | recv
  | postponed (next : Nat)
  deriving DecidableEq, Repr

/-- Where the thread stands. -/
inductive TakionPc
  | loop
  | recheck (i : Nat)
  | postponed
  | flushPostponed (i : Nat)
  | recv
  | flushDataQueue (caller : TakionCaller) (ack : Bool) (seqNum : Nat)
  | exited
  | fault (f : Fault)
  deriving DecidableEq, Repr

/-- The statement after the call. -/
def TakionCaller.pc : TakionCaller → TakionPc
  | .recv => .loop
  | .postponed next => .flushPostponed next

/-- What the thread does. -/
inductive TakionOutput (κ : Type)
  | macVerified (crypt : κ) (packet : Bytes)
  | use (id : Nat)
  | free (id : Nat)
  | freeEntry (id : Nat)
  | consumed (seqNum : Nat) (payload : Bytes)
  | data (crypt : Option κ) (dataType : TakionMessageDataType) (buf : Bytes)
  | dataAck (seqNum : Nat)
  | av (crypt : Option κ) (packet : TakionAVPacket) (bytes : Bytes)
  | sendDataAck (seqNum : Nat)
  | send (packet : Bytes)
  | disconnect
  deriving DecidableEq

/-- The fields of `ChiakiTakion` that the thread uses, and its locals. -/
structure Takion (κ : Type) where
  version : TakionVersion
  enableCrypt : Bool
  postponedPackets : Option (List PacketBuf)
  gkcryptLocal : Option κ
  keyPosLocal : Nat
  gkcryptRemote : Option κ
  dataQueue : ReorderQueue TakionDataPacketEntry
  sendBuffer : TakionSendBuffer
  tagLocal : Nat
  tagRemote : Nat
  aRwnd : Nat
  keyState : KeyState
  cryptAvailable : Bool
  pc : TakionPc
  nextBuf : Nat
  log : List (TakionOutput κ)

/-- What moves next: the Takion thread, or another thread on the fields it shares. -/
inductive TakionLabel (κ : Type)
  | run (mem : Bool) (installed : Option (κ × κ))
  | recv (packet : Bytes) (mem : Bool)
  | stop
  | advanceKeyPos (dataSize : Nat)
  | sendBufferPush (seqNum : Nat) (packet : PacketBuf) (now : Nat)
  | resend (now : Nat)

namespace Takion

def emit (t : Takion κ) (e : TakionOutput κ) : Takion κ := { t with log := e :: t.log }

def goto (t : Takion κ) (pc : TakionPc) : Takion κ := { t with pc := pc }

/-- `free(buf)` -/
def freeBuf (t : Takion κ) (buf : PacketBuf) : Takion κ := t.emit (.free buf.id)

/-- `free(entry->packet_buf); free(entry);` -/
def freeEntry (t : Takion κ) (entry : TakionDataPacketEntry) : Takion κ :=
  (t.freeBuf entry.packetBuf).emit (.freeEntry entry.packetBuf.id)

/-- `takion_data_drop` for each element that the queue drops. -/
def dataDrop (t : Takion κ) (dropped : List (Nat × TakionDataPacketEntry)) : Takion κ :=
  dropped.foldl (fun (t : Takion κ) d => t.freeEntry d.2) t

end Takion

open Takion

/-- After the handshake and the CONNECTED event, in front of the main loop. -/
def takionInit (version : TakionVersion) (enableCrypt : Bool) (tagLocal tagRemote : Nat)
    (keyState : KeyState) (crypt : Option (κ × κ)) : Takion κ where
  version := version
  enableCrypt := enableCrypt
  postponedPackets := none
  gkcryptLocal := crypt.map Prod.fst
  keyPosLocal := 0
  gkcryptRemote := crypt.map Prod.snd
  dataQueue := reorderQueueSetDropCb (reorderQueueInit32 takionReorderQueueSizeExp tagRemote)
  sendBuffer := takionSendBufferInit true takionSendBufferSize
  tagLocal := tagLocal
  tagRemote := tagRemote
  aRwnd := takionARwnd
  keyState := keyState
  cryptAvailable := crypt.isSome
  pc := .loop
  nextBuf := 0
  log := []

section

variable (gmac : κ → Nat → Bytes → Mac)

/-! ## Handling a packet -/

/-- `takion_handle_packet_mac`. The packet is in memory with the MAC that was expected. -/
def takionHandlePacketMac (t : Takion κ) (buf : PacketBuf) : Takion κ × PacketBuf × ErrorCode :=
  match t.gkcryptRemote with
  | none => (t, buf, .success)
  | some crypt =>
    match takionPacketReadKeyPos t.keyState buf.bytes with
    | .error err => (t, buf, err)
    | .ok keyPos =>
      match takionPacketMac gmac (some crypt) buf.bytes keyPos with
      | .error err => (t, buf, err)
      | .ok (bytes, macExpected, mac) =>
        if macExpected ≠ mac then (t, { buf with bytes := bytes }, .invalidMac)
        else
          ({ t with keyState := keyStateCommit t.keyState keyPos }.emit (.macVerified crypt bytes),
            { buf with bytes := bytes }, .success)

/-- `takion_postpone_packet` -/
def takionPostponePacket (t : Takion κ) (buf : PacketBuf) (mem : Bool) : Takion κ :=
  match t.postponedPackets, mem with
  | none, false => t
  | packets, _ =>
    let packets := packets.getD []
    if takionPostponePacketsSize ≤ packets.length then { t with postponedPackets := some packets }
    else { t with postponedPackets := some (packets ++ [buf]) }

/-- `takion_handle_packet_av` -/
def takionHandlePacketAv (t : Takion κ) (buf : PacketBuf) : Except Fault (Takion κ) :=
  match t.version.avPacketParse t.keyState buf.bytes with
  | .error f => .error f
  | .ok (keyState, .error _) => .ok { t with keyState := keyState }
  | .ok (keyState, .ok packet) =>
    .ok ({ t with keyState := keyState }.emit (.av t.gkcryptRemote packet buf.bytes))

/-- `takion_handle_packet_message_data`. An element that the queue drops is freed. -/
def takionHandlePacketMessageData (t : Takion κ) (buf : PacketBuf) (typeB : Nat)
    (payload : Option Nat) (payloadSize : Nat) (mem : Bool) (caller : TakionCaller) :
    Except Fault (Takion κ) :=
  if payloadSize < 9 then .ok t
  else if !mem then .ok t
  else
    match payload with
    | none => .error .nullPointer
    | some payload =>
      let entry := {
        packetBuf := buf
        typeB := typeB
        payload := payload
        payloadSize := payloadSize
        channel := u16At buf.bytes (payload + 4) }
      match reorderQueuePush t.dataQueue (u32At buf.bytes payload) entry with
      | .error f => .error f
      | .ok (q, dropped) =>
        .ok (({ t with dataQueue := q }.dataDrop dropped).goto (.flushDataQueue caller false 0))

/-- `takion_handle_packet_message_data_ack` -/
def takionHandlePacketMessageDataAck (t : Takion κ) (payload : Bytes) : Takion κ :=
  match takionDataAckSeqNum payload with
  | none => t
  | some seqNum =>
    let r := takionSendBufferAck t.sendBuffer seqNum
    r.2.foldl (fun (t : Takion κ) p => t.emit (.dataAck p.seqNum)) { t with sendBuffer := r.1 }

/-- `takion_handle_packet_message` -/
def takionHandlePacketMessage (t : Takion κ) (buf : PacketBuf) (mem : Bool)
    (caller : TakionCaller) : Except Fault (Takion κ) :=
  let r := takionParseMessage t.tagLocal t.keyState (buf.bytes.drop 1)
  let t := { t with keyState := r.1 }
  match r.2 with
  | .error _ => .ok (t.freeBuf buf)
  | .ok msg =>
    match TakionChunkType.ofByte msg.chunkType with
    | some .data =>
      takionHandlePacketMessageData t buf msg.chunkFlags (msg.payload.map (· + 1)) msg.payloadSize
        mem caller
    | some .dataAck =>
      let payload := slice buf.bytes (1 + msg.payload.getD 0) msg.payloadSize
      .ok ((takionHandlePacketMessageDataAck t payload).freeBuf buf)
    | _ => .ok (t.freeBuf buf)

/-- `takion_handle_packet` -/
def takionHandlePacket (t : Takion κ) (buf : PacketBuf) (mem : Bool) (caller : TakionCaller) :
    Except Fault (Takion κ) :=
  if buf.bytes.length = 0 then .error .assertion
  else
    let baseType := takionPacketBaseType (u8At buf.bytes 0)
    let t := t.goto caller.pc
    match takionHandlePacketMac gmac t buf with
    | (t, buf, .success) =>
      match baseType with
      | some .control => takionHandlePacketMessage t buf mem caller
      | some .video | some .audio =>
        if t.enableCrypt && t.gkcryptRemote.isNone then .ok (takionPostponePacket t buf mem)
        else (takionHandlePacketAv t buf).map fun t => t.freeBuf buf
      | _ => .ok (t.freeBuf buf)
    | (t, buf, _) => .ok (t.freeBuf buf)

/-! ## The steps of the thread -/

/-- `chiaki_takion_send_message_data_ack` -/
def takionSendMessageDataAck (t : Takion κ) (seqNum : Nat) : Takion κ :=
  let t := t.emit (.sendDataAck seqNum)
  match takionCryptAdvanceKeyPos t.gkcryptLocal t.keyPosLocal (1 + takionMessageHeaderSize + 0xc) with
  | .error _ => t
  | .ok (keyPos, next) =>
    let t := { t with keyPosLocal := next }
    let buf := takionMessageDataAckPacket t.tagRemote keyPos seqNum t.aRwnd
    match takionPacketMac gmac t.gkcryptLocal buf keyPos with
    | .error _ => t
    | .ok (buf, _, _) => t.emit (.send buf)

/-- The callback for a DATA event, which may call `chiaki_takion_set_crypt`. -/
def takionDataEvent (t : Takion κ) (dataType : TakionMessageDataType) (buf : Bytes)
    (installed : Option (κ × κ)) : Takion κ :=
  let t := t.emit (.data t.gkcryptRemote dataType buf)
  match installed with
  | none => t
  | some (gkcryptLocal, gkcryptRemote) =>
    { t with gkcryptLocal := some gkcryptLocal, gkcryptRemote := some gkcryptRemote }

/-- `takion_flush_data_queue` with one element that was pulled. -/
def takionFlushEntry (t : Takion κ) (entry : TakionDataPacketEntry)
    (installed : Option (κ × κ)) : Takion κ :=
  let t :=
    if entry.payloadSize < 9 then t
    else
      match TakionMessageDataType.ofByte (u8At entry.payloadBytes 8) with
      | none => t
      | some dataType => takionDataEvent t dataType (entry.payloadBytes.drop 9) installed
  t.freeEntry entry

/-- One round of the loop in `takion_flush_data_queue`, or its end. -/
def takionFlushDataQueue (t : Takion κ) (caller : TakionCaller) (ack : Bool) (seqNum : Nat)
    (installed : Option (κ × κ)) : Takion κ :=
  match reorderQueuePull t.dataQueue with
  | none => (if ack then takionSendMessageDataAck gmac t (seqNum % 2 ^ 32) else t).goto caller.pc
  | some (seqNum, entry, q) =>
    let t := { t with dataQueue := q }.goto (.flushDataQueue caller true seqNum)
    let t := (t.emit (.use entry.packetBuf.id)).emit (.consumed seqNum entry.payloadBytes)
    takionFlushEntry t entry installed

/-- One round of the loop that re-checks the MACs in the queue, or its end. -/
def takionRecheck (t : Takion κ) (i : Nat) : Takion κ :=
  if t.dataQueue.count ≤ i then t.goto .postponed
  else
    match reorderQueuePeek t.dataQueue i false with
    | .error f => t.goto (.fault f)
    | .ok none => t.goto (.recheck (i + 1))
    | .ok (some (seqNum, entry)) =>
      let t := (t.emit (.use entry.packetBuf.id)).goto (.recheck (i + 1))
      if entry.packetBuf.bytes.length = 0 then t
      else
        let r := takionHandlePacketMac gmac t entry.packetBuf
        let q := r.1.dataQueue.setEntry seqNum ⟨{ entry with packetBuf := r.2.1 }, true⟩
        if r.2.2 = .success then { r.1 with dataQueue := q }
        else
          let d := reorderQueueDrop q i
          { r.1 with dataQueue := d.1 }.dataDrop d.2

/-- A fault ends the thread. -/
def Takion.orFault (t : Takion κ) : Except Fault (Takion κ) → Takion κ
  | .ok t' => t'
  | .error f => t.goto (.fault f)

/-- The next step of the thread, up to where it waits for a datagram. -/
def takionRun (t : Takion κ) (mem : Bool) (installed : Option (κ × κ)) : Option (Takion κ) :=
  match t.pc with
  | .loop =>
    if t.enableCrypt && !t.cryptAvailable && t.gkcryptRemote.isSome then
      some ({ t with cryptAvailable := true }.goto (.recheck 0))
    else some (t.goto .postponed)
  | .recheck i => some (takionRecheck gmac t i)
  | .postponed =>
    if t.postponedPackets.isSome && t.gkcryptRemote.isSome then some (t.goto (.flushPostponed 0))
    else some (t.goto .recv)
  | .flushPostponed i =>
    match (t.postponedPackets.getD [])[i]? with
    | some packet => some (t.orFault (takionHandlePacket gmac t packet mem (.postponed (i + 1))))
    | none => some ({ t with postponedPackets := none }.goto .recv)
  | .flushDataQueue caller ack seqNum => some (takionFlushDataQueue gmac t caller ack seqNum installed)
  | .recv => none
  | .exited => none
  | .fault _ => none

/-- A datagram arrives; `recv` fails on an empty one and cuts it off at the buffer size. -/
def takionRecv (t : Takion κ) (packet : Bytes) (mem : Bool) : Option (Takion κ) :=
  if t.pc = .recv ∧ 0 < packet.length ∧ packet.length ≤ 1500 then
    let t' := { t with nextBuf := t.nextBuf + 1 }
    some (t'.orFault (takionHandlePacket gmac t' ⟨t.nextBuf, packet⟩ mem .recv))
  else none

/-- `recv` fails or is canceled: the end of `takion_thread_func`. -/
def takionStop (t : Takion κ) : Option (Takion κ) :=
  if t.pc = .recv then
    some (((t.dataDrop (reorderQueueFini t.dataQueue)).emit .disconnect).goto .exited)
  else none

/-- One step around the Takion thread. -/
def takionStep (t : Takion κ) : TakionLabel κ → Option (Takion κ)
  | .run mem installed => takionRun gmac t mem installed
  | .recv packet mem => takionRecv gmac t packet mem
  | .stop => takionStop t
  | .advanceKeyPos dataSize =>
    match takionCryptAdvanceKeyPos t.gkcryptLocal t.keyPosLocal dataSize with
    | .error _ => some t
    | .ok (_, next) => some { t with keyPosLocal := next }
  | .sendBufferPush seqNum packet now =>
    some { t with sendBuffer := (takionSendBufferPush t.sendBuffer seqNum packet now).1 }
  | .resend now => some { t with sendBuffer := (takionSendBufferResend t.sendBuffer now).1 }

end

/-- What the handshake can leave behind. -/
def TakionInitial (t : Takion κ) : Prop :=
  ∃ version enableCrypt tagLocal tagRemote keyState crypt, tagRemote < 2 ^ 32 ∧
    t = takionInit version enableCrypt tagLocal tagRemote keyState crypt

/-- The receiving side. -/
def takionLts (gmac : κ → Nat → Bytes → Mac) : Lts (Takion κ) (TakionLabel κ) :=
  Lts.ofFun TakionInitial (takionStep gmac)

end Chiaki
