import Chiaki.Infra.Transition
import Chiaki.Takion.Packet

/-!
# Frame assembly (`frameprocessor.c`, `fec.c`)

The units of a video frame are collected in one buffer, at a stride of 16 bytes, and flushed as
one frame after missing units have been decoded.

An array is a list of what was allocated for it, and `NULL` is the empty one; an access behind the
end is a fault. Jerasure is a parameter that gets the units and changes no other memory. Whether
memory can be allocated is a parameter of each call. What is dumped to the log is read.
-/

namespace Chiaki

open Infra

/-- `CHIAKI_VIDEO_BUFFER_PADDING_SIZE` -/
def videoBufferPaddingSize : Nat := 64

/-- `UNIT_SLOTS_MAX` -/
def unitSlotsMax : Nat := 256

/-- A parsed packet with the bytes that `data` points to. -/
structure TakionAVUnit where
  packet : TakionAVPacket
  bytes : Bytes
  length_bytes : bytes.length = packet.dataSize
  deriving DecidableEq

/-- `ChiakiPacketStats`, as far as it is about generations. -/
structure PacketStats where
  genReceived : Nat
  genLost : Nat
  deriving DecidableEq, Repr

/-- `ChiakiStreamStats` -/
structure StreamStats where
  frames : Nat
  bytes : Nat
  deriving DecidableEq, Repr

/-- `ChiakiFrameProcessor`. A unit slot is the size of its data. -/
structure FrameProcessor where
  frameBuf : Bytes
  frameBufSize : Nat
  bufSizePerUnit : Nat
  bufStridePerUnit : Nat
  unitsSourceExpected : Nat
  unitsFecExpected : Nat
  unitsSourceReceived : Nat
  unitsFecReceived : Nat
  unitSlots : List Nat
  unitSlotsSize : Nat
  flushed : Bool
  streamStats : StreamStats
  deriving DecidableEq, Repr

/-- `ChiakiFrameProcessorFlushResult` -/
inductive FrameFlushResult
  | success
  | fecSuccess
  | fecFailed
  | failed
  deriving DecidableEq, Repr

/-- `jerasure_matrix_decode` with the matrix of `create_matrix`: the data units and the coding units
are decoded in place, or it fails. -/
structure Jerasure where
  decode : Nat → Nat → List Nat → List Bytes → Option (List Bytes)
  length_decode : ∀ k m erasures units units', decode k m erasures units = some units' →
    units'.map List.length = units.map List.length

/-- `chiaki_frame_processor_init` -/
def frameProcessorInit : FrameProcessor where
  frameBuf := []
  frameBufSize := 0
  bufSizePerUnit := 0
  bufStridePerUnit := 0
  unitsSourceExpected := 0
  unitsFecExpected := 0
  unitsSourceReceived := 0
  unitsFecReceived := 0
  unitSlots := []
  unitSlotsSize := 0
  flushed := true
  streamStats := ⟨0, 0⟩

/-! ## A new frame -/

/-- The end of `chiaki_frame_processor_alloc_frame`: `frame_buf` is made large enough and cleared. -/
def frameProcessorAllocBuf (s : FrameProcessor) (mem : Bool) : Except Fault (FrameProcessor × ErrorCode) :=
  if s.unitSlotsSize > (2 ^ 64 - 1) / s.bufStridePerUnit then .ok (s, .overflow)
  else
    let required := s.unitSlotsSize * s.bufStridePerUnit
    let cleared := List.replicate (required + videoBufferPaddingSize) 0
    if s.frameBufSize < required then
      if mem then .ok ({ s with frameBuf := cleared, frameBufSize := required }, .success)
      else .ok ({ s with frameBuf := [], frameBufSize := 0 }, .memory)
    else if s.frameBuf.length < required + videoBufferPaddingSize then .error .outOfBounds
    else .ok ({ s with frameBuf := splice s.frameBuf 0 cleared }, .success)

/-- The middle of `chiaki_frame_processor_alloc_frame`: `unit_slots` gets its size and is cleared. -/
def frameProcessorAllocSlots (s : FrameProcessor) (slotsMem frameMem : Bool) :
    Except Fault (FrameProcessor × ErrorCode) :=
  let required := s.unitsSourceExpected + s.unitsFecExpected
  if required > unitSlotsMax then .ok (s, .invalidData)
  else if required ≠ s.unitSlotsSize then
    if slotsMem then
      frameProcessorAllocBuf
        { s with unitSlots := List.replicate required 0, unitSlotsSize := required } frameMem
    else .ok ({ s with unitSlots := [], unitSlotsSize := 0 }, .memory)
  else if s.unitSlots.length < s.unitSlotsSize then .error .outOfBounds
  else frameProcessorAllocBuf { s with unitSlots := List.replicate s.unitSlotsSize 0 } frameMem

/-- The unit of a packet is a source unit of a video frame: its first two bytes are the size that
the other units may have in addition. -/
def TakionAVUnit.hasExtension (u : TakionAVUnit) (unitsSourceExpected : Nat) : Bool :=
  u.packet.isVideo && decide (u.packet.unitIndex < unitsSourceExpected)

/-- `chiaki_frame_processor_alloc_frame` -/
def frameProcessorAllocFrame (s : FrameProcessor) (u : TakionAVUnit) (slotsMem frameMem : Bool) :
    Except Fault (FrameProcessor × ErrorCode) :=
  let packet := u.packet
  if packet.unitsInFrameTotal < packet.unitsInFrameFec then .ok (s, .invalidData)
  else
    let source := packet.unitsInFrameTotal - packet.unitsInFrameFec
    let s := { s with
      flushed := false
      unitsSourceExpected := source
      unitsFecExpected := if packet.unitsInFrameFec < 1 then 1 else packet.unitsInFrameFec
      bufSizePerUnit := packet.dataSize }
    if u.hasExtension source && decide (packet.dataSize < 2) then .ok (s, .bufTooSmall)
    else
      let bufSize := packet.dataSize + if u.hasExtension source then u16At u.bytes 0 else 0
      let s := { s with bufSizePerUnit := bufSize, bufStridePerUnit := (bufSize + 0xf) / 0x10 * 0x10 }
      if bufSize = 0 then .ok (s, .bufTooSmall)
      else
        frameProcessorAllocSlots { s with unitsSourceReceived := 0, unitsFecReceived := 0 }
          slotsMem frameMem

/-! ## A unit -/

/-- `chiaki_frame_processor_put_unit` -/
def frameProcessorPutUnit (s : FrameProcessor) (u : TakionAVUnit) :
    Except Fault (FrameProcessor × ErrorCode) :=
  let packet := u.packet
  if packet.unitIndex > s.unitSlotsSize then .ok (s, .invalidData)
  else if packet.dataSize = 0 then .ok (s, .invalidData)
  else if packet.dataSize > s.bufSizePerUnit then .ok (s, .invalidData)
  else
    match s.unitSlots[packet.unitIndex]? with
    | none => .error .outOfBounds
    | some dataSize =>
      if dataSize ≠ 0 then .ok (s, .invalidData)
      else
        let off := packet.unitIndex * s.bufStridePerUnit
        if !s.flushed ∧ s.frameBuf.length < off + packet.dataSize then .error .outOfBounds
        else
          let s := { s with
            unitSlots := s.unitSlots.set packet.unitIndex packet.dataSize
            frameBuf := if s.flushed then s.frameBuf else splice s.frameBuf off u.bytes }
          if packet.unitIndex < s.unitsSourceExpected then
            .ok ({ s with unitsSourceReceived := s.unitsSourceReceived + 1 }, .success)
          else .ok ({ s with unitsFecReceived := s.unitsFecReceived + 1 }, .success)

/-- `chiaki_packet_stats_push_generation` -/
def packetStatsPushGeneration (stats : PacketStats) (received lost : Nat) : PacketStats where
  genReceived := (stats.genReceived + received) % 2 ^ 64
  genLost := (stats.genLost + lost) % 2 ^ 64

/-- `chiaki_frame_processor_report_packet_stats` -/
def frameProcessorReportPacketStats (s : FrameProcessor) (stats : PacketStats) : PacketStats :=
  let received := (s.unitsSourceReceived + s.unitsFecReceived) % 2 ^ 32
  let expected := (s.unitsSourceExpected + s.unitsFecExpected) % 2 ^ 32
  packetStatsPushGeneration stats received ((expected + 2 ^ 64 - received) % 2 ^ 64)

/-! ## Missing units -/

/-- `chiaki_fec_decode` -/
def fecDecode (jerasure : Jerasure) (frameBuf : Bytes) (unitSize stride k m : Nat)
    (erasures : List Nat) : Except Fault (Except ErrorCode Bytes) :=
  if stride < unitSize then .ok (.error .invalidData)
  else if !(List.range (k + m)).all fun i => decide (stride * i + unitSize ≤ frameBuf.length) then
    .error .outOfBounds
  else
    match jerasure.decode k m erasures ((List.range (k + m)).map fun i => slice frameBuf (stride * i) unitSize) with
    | none => .ok (.error .fecFailed)
    | some units =>
      .ok (.ok ((units.zipIdx).foldl (fun buf (unit, i) => splice buf (stride * i) unit) frameBuf))

/-- The loop that collects the empty slots, from slot `i` on. -/
def frameProcessorErasures (s : FrameProcessor) (erasuresCount : Nat) :
    Nat → Nat → List Nat → Except Fault (List Nat)
  | 0, _, erasures => .ok erasures
  | n + 1, i, erasures =>
    match s.unitSlots[i]? with
    | none => .error .outOfBounds
    | some dataSize =>
      if dataSize ≠ 0 then frameProcessorErasures s erasuresCount n (i + 1) erasures
      else if erasures.length ≥ erasuresCount then .error .assertion
      else frameProcessorErasures s erasuresCount n (i + 1) (erasures ++ [i])

/-- The loop that restores the sizes of the units, from slot `i` on. -/
def frameProcessorRestore (s : FrameProcessor) : Nat → Nat → List Nat → Except Fault (List Nat)
  | 0, _, slots => .ok slots
  | n + 1, i, slots =>
    let off := s.bufStridePerUnit * i
    if s.frameBuf.length < off + 2 then .error .outOfBounds
    else
      let padding := u16At s.frameBuf off
      if padding ≥ s.bufSizePerUnit then
        if s.frameBuf.length < off + 0x50 then .error .outOfBounds
        else frameProcessorRestore s n (i + 1) slots
      else if slots.length ≤ i then .error .outOfBounds
      else frameProcessorRestore s n (i + 1) (slots.set i (s.bufSizePerUnit - padding))

/-- `chiaki_frame_processor_fec` -/
def frameProcessorFec (jerasure : Jerasure) (s : FrameProcessor) (mem : Bool) :
    Except Fault (FrameProcessor × ErrorCode) := do
  let expected := s.unitsSourceExpected + s.unitsFecExpected
  let received := s.unitsSourceReceived + s.unitsFecReceived
  let erasuresCount := (expected + 2 ^ 32 - received % 2 ^ 32) % 2 ^ 32
  if !mem then return (s, .memory)
  let erasures ← frameProcessorErasures s erasuresCount expected 0 []
  if erasures.length ≠ erasuresCount then .error .assertion
  else
    match ← fecDecode jerasure s.frameBuf s.bufSizePerUnit s.bufStridePerUnit s.unitsSourceExpected
      s.unitsFecExpected erasures with
    | .error _ => return (s, .fecFailed)
    | .ok frameBuf =>
      let s := { s with frameBuf := frameBuf }
      let slots ← frameProcessorRestore s s.unitsSourceExpected 0 s.unitSlots
      return ({ s with unitSlots := slots }, .success)

/-! ## The whole frame -/

/-- The loop that moves the units together, from slot `i` on. -/
def frameProcessorCompact (s : FrameProcessor) : Nat → Nat → Nat → Bytes → Except Fault (Bytes × Nat)
  | 0, _, cur, buf => .ok (buf, cur)
  | n + 1, i, cur, buf =>
    match s.unitSlots[i]? with
    | none => .error .outOfBounds
    | some dataSize =>
      if dataSize = 0 then frameProcessorCompact s n (i + 1) cur buf
      else if dataSize < 2 then
        if buf.length < i * s.bufSizePerUnit + 0x50 then .error .outOfBounds
        else frameProcessorCompact s n (i + 1) cur buf
      else
        let partSize := dataSize - 2
        let off := i * s.bufStridePerUnit + 2
        if buf.length < off + partSize ∨ buf.length < cur + partSize then .error .outOfBounds
        else frameProcessorCompact s n (i + 1) (cur + partSize) (splice buf cur (slice buf off partSize))

/-- `chiaki_frame_processor_flush`, with the size of the frame at the beginning of `frame_buf`. -/
def frameProcessorFlush (jerasure : Jerasure) (s : FrameProcessor) (mem : Bool) :
    Except Fault (FrameProcessor × FrameFlushResult × Nat) := do
  if s.unitsSourceExpected = 0 ∨ s.flushed then return (s, .failed, 0)
  let (s, result) ←
    if s.unitsSourceReceived < s.unitsSourceExpected then
      match ← frameProcessorFec jerasure s mem with
      | (s, .success) => Except.ok (s, FrameFlushResult.fecSuccess)
      | (s, _) => Except.ok (s, FrameFlushResult.fecFailed)
    else Except.ok (s, FrameFlushResult.success)
  let (frameBuf, cur) ← frameProcessorCompact s s.unitsSourceExpected 0 0 s.frameBuf
  let stats := { s.streamStats with
    frames := s.streamStats.frames + 1
    bytes := s.streamStats.bytes + cur }
  return ({ s with frameBuf := frameBuf, streamStats := stats }, result, cur)

/-! ## Sequences of calls -/

/-- A frame processor in use. It is `usable` unless the last frame could not be allocated. -/
structure FrameProcessorRun where
  proc : FrameProcessor
  stats : PacketStats
  usable : Bool
  fault : Option Fault

inductive FrameProcessorLabel
  | allocFrame (u : TakionAVUnit) (slotsMem frameMem : Bool)
  | putUnit (u : TakionAVUnit)
  | reportPacketStats
  | flush (mem : Bool)

/-- What `chiaki_frame_processor_alloc_frame` needs behind its first check: a source unit with its
size extension, units that are not empty, not too many of them, a size that is a `size_t`, and the
memory. -/
def allocFrameFits (s : FrameProcessor) (u : TakionAVUnit) (slotsMem frameMem : Bool) : Bool :=
  let packet := u.packet
  let source := packet.unitsInFrameTotal - packet.unitsInFrameFec
  let slots := source + max packet.unitsInFrameFec 1
  let bufSize := packet.dataSize + if u.hasExtension source then u16At u.bytes 0 else 0
  let stride := (bufSize + 0xf) / 0x10 * 0x10
  (!u.hasExtension source || decide (2 ≤ packet.dataSize)) && decide (0 < bufSize)
    && decide (slots ≤ unitSlotsMax) && decide (slots ≤ (2 ^ 64 - 1) / stride)
    && (slotsMem || decide (slots = s.unitSlotsSize))
    && (frameMem || decide (slots * stride ≤ s.frameBufSize))

/-- A call has returned, or not. -/
def FrameProcessorRun.after (s : FrameProcessorRun) (usable : Bool)
    (r : Except Fault FrameProcessor) : FrameProcessorRun :=
  match r with
  | .error f => { s with fault := some f }
  | .ok proc => { s with proc := proc, usable := usable }

/-- One call. The results are ignored, as in `chiaki_video_receiver_av_packet`. -/
def frameProcessorStep (jerasure : Jerasure) (s : FrameProcessorRun) :
    FrameProcessorLabel → Option FrameProcessorRun
  | l =>
    match s.fault with
    | some _ => none
    | none =>
      match l with
      | .allocFrame u slotsMem frameMem =>
        let usable := if u.packet.unitsInFrameTotal < u.packet.unitsInFrameFec then s.usable
          else allocFrameFits s.proc u slotsMem frameMem
        some (s.after usable ((frameProcessorAllocFrame s.proc u slotsMem frameMem).map Prod.fst))
      | .putUnit u => some (s.after s.usable ((frameProcessorPutUnit s.proc u).map Prod.fst))
      | .reportPacketStats =>
        some { s with stats := frameProcessorReportPacketStats s.proc s.stats }
      | .flush mem => some (s.after s.usable ((frameProcessorFlush jerasure s.proc mem).map Prod.fst))

def frameProcessorLts (jerasure : Jerasure) : Lts FrameProcessorRun FrameProcessorLabel :=
  Lts.ofFun (fun s => s = ⟨frameProcessorInit, ⟨0, 0⟩, true, none⟩) (frameProcessorStep jerasure)

end Chiaki
