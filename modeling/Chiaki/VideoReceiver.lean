import Chiaki.FrameProcessor
import Chiaki.Seqnum

/-!
# The video receiver (`videoreceiver.c`)

The packets of a video stream are sorted into frames: a packet of an old frame is ignored, one of a
newer frame starts that frame, and what the frame processor has put together is passed to
`video_sample_cb`.

What the receiver does for the session, and when it starts a frame or puts a unit, appears in the
list of events that a function returns next to the new receiver. Memory and the results of the
callback are parameters of each call. The pixel sizes of a profile are only logged, so a profile is
its header.
-/

namespace Chiaki

open Infra

/-- `ChiakiVideoReceiver`, and whether the session has a `video_sample_cb`. -/
structure VideoReceiver where
  videoSampleCb : Bool
  profiles : List Bytes
  profileCur : Int
  frameIndexCur : Int
  frameIndexPrev : Int
  frameIndexPrevComplete : Int
  frameProcessor : FrameProcessor
  packetStats : Option PacketStats

/-- What happens while a packet is handled.

* `header` — `video_sample_cb` with the header of a profile
* `corruptFrame` — `stream_connection_send_corrupt_frame`
* `start` — a frame becomes the current one, with the result of `chiaki_frame_processor_alloc_frame`
* `unit` — the result of `chiaki_frame_processor_put_unit`
* `frame` — the current frame is flushed; `passed` says that there is a `video_sample_cb` for it -/
inductive VideoEvent
  | header (buf : Bytes)
  | corruptFrame (start stop : Nat)
  | start (u : TakionAVUnit) (err : ErrorCode)
  | unit (u : TakionAVUnit) (err : ErrorCode)
  | frame (frameIndex : Int) (buf : Bytes) (passed : Bool)
  deriving DecidableEq

/-- What `chiaki_video_receiver_flush_frame` meets. -/
structure VideoFlushEnv where
  mem : Bool
  cbSucc : Bool

/-- What `chiaki_video_receiver_av_packet` meets: when it flushes the last frame, when it allocates
the next one, and when it flushes that. -/
structure VideoPacketEnv where
  last : VideoFlushEnv
  slotsMem : Bool
  frameMem : Bool
  next : VideoFlushEnv

/-- `chiaki_video_receiver_init` -/
def videoReceiverInit (videoSampleCb : Bool) (packetStats : Option PacketStats) : VideoReceiver where
  videoSampleCb := videoSampleCb
  profiles := []
  profileCur := -1
  frameIndexCur := -1
  frameIndexPrev := -1
  frameIndexPrevComplete := 0
  frameProcessor := frameProcessorInit
  packetStats := packetStats

/-- `chiaki_video_receiver_stream_info` -/
def videoReceiverStreamInfo (s : VideoReceiver) (profiles : List Bytes) : VideoReceiver :=
  if s.profiles.length > 0 then s else { s with profiles := profiles }

/-- The conversion to `ChiakiSeqNum16`. -/
def toSeqNum16 (n : Int) : Nat := (n % 2 ^ 16).toNat

/-- `packet->frame_index` -/
def TakionAVUnit.frameIndex (u : TakionAVUnit) : Nat := u.packet.frameIndex % 2 ^ 16

/-- `chiaki_frame_processor_flush_possible` -/
def frameProcessorFlushPossible (s : FrameProcessor) : Bool :=
  decide ((s.unitsSourceReceived + s.unitsFecReceived) % 2 ^ 32 ≥ s.unitsSourceExpected)

/-- `chiaki_video_receiver_flush_frame` -/
def videoReceiverFlushFrame (jerasure : Jerasure) (s : VideoReceiver) (env : VideoFlushEnv) :
    Except Fault (VideoReceiver × List VideoEvent) := do
  let (proc, result, size) ← frameProcessorFlush jerasure s.frameProcessor env.mem
  let s := { s with frameProcessor := proc }
  if result = .failed then return (s, [])
  else
    let succ := result ≠ .fecFailed ∧ (s.videoSampleCb = true → env.cbSucc = true)
    return ({ s with
      frameIndexPrev := s.frameIndexCur
      frameIndexPrevComplete := if succ then s.frameIndexCur else s.frameIndexPrevComplete },
      [.frame s.frameIndexCur (proc.frameBuf.take size) s.videoSampleCb])

/-- "check adaptive stream index". There is no result if the packet has an invalid one. -/
def videoReceiverSelectProfile (s : VideoReceiver) (u : TakionAVUnit) :
    Option (VideoReceiver × List VideoEvent) :=
  let index := u.packet.adaptiveStreamIndex
  if s.profileCur < 0 ∨ s.profileCur ≠ index then
    match s.profiles[index]? with
    | none => none
    | some header =>
      some ({ s with profileCur := index }, if s.videoSampleCb then [.header header] else [])
  else some (s, [])

/-- `chiaki_video_receiver_flush_frame` on a condition. -/
def videoReceiverFlushIf (jerasure : Jerasure) (cond : Bool) (s : VideoReceiver)
    (env : VideoFlushEnv) : Except Fault (VideoReceiver × List VideoEvent) :=
  if cond then videoReceiverFlushFrame jerasure s env else .ok (s, [])

/-- Frames that are missing before the one of the packet, or that could not be completed, are
reported. -/
def videoReceiverReportCorrupt (s : VideoReceiver) (u : TakionAVUnit) : List VideoEvent :=
  let nextFrameExpected := toSeqNum16 (s.frameIndexPrevComplete + 1)
  if seqNum16Gt u.frameIndex nextFrameExpected ∧ ¬ (u.frameIndex = 1 ∧ s.frameIndexCur < 0) then
    [.corruptFrame nextFrameExpected (toSeqNum16 ((u.frameIndex : Int) - 1))]
  else []

/-- The last frame is flushed if it is not yet, frames in between are reported, and the frame of the
packet becomes the current one. -/
def videoReceiverStartFrame (jerasure : Jerasure) (s : VideoReceiver) (u : TakionAVUnit)
    (env : VideoPacketEnv) : Except Fault (VideoReceiver × List VideoEvent) := do
  let s := { s with
    packetStats := s.packetStats.map (frameProcessorReportPacketStats s.frameProcessor) }
  let (s, flushed) ← videoReceiverFlushIf jerasure
    (decide (s.frameIndexCur ≥ 0 ∧ s.frameIndexPrev ≠ s.frameIndexCur)) s env.last
  let (proc, err) ← frameProcessorAllocFrame s.frameProcessor u env.slotsMem env.frameMem
  return ({ s with frameIndexCur := u.frameIndex, frameProcessor := proc },
    flushed ++ videoReceiverReportCorrupt s u ++ [.start u err])

/-- "next frame?" -/
def videoReceiverNextFrame (jerasure : Jerasure) (s : VideoReceiver) (u : TakionAVUnit)
    (env : VideoPacketEnv) : Except Fault (VideoReceiver × List VideoEvent) :=
  if s.frameIndexCur < 0 ∨ seqNum16Gt u.frameIndex (toSeqNum16 s.frameIndexCur) then
    videoReceiverStartFrame jerasure s u env
  else .ok (s, [])

/-- The end of `chiaki_video_receiver_av_packet`: the unit is put, and the frame is flushed if there
is enough of it. -/
def videoReceiverPutUnit (jerasure : Jerasure) (s : VideoReceiver) (u : TakionAVUnit)
    (env : VideoFlushEnv) : Except Fault (VideoReceiver × List VideoEvent) := do
  let (proc, err) ← frameProcessorPutUnit s.frameProcessor u
  let s := { s with frameProcessor := proc }
  let (s, flushed) ← videoReceiverFlushIf jerasure
    (decide (s.frameIndexCur ≠ s.frameIndexPrev) && frameProcessorFlushPossible proc) s env
  return (s, .unit u err :: flushed)

/-- `chiaki_video_receiver_av_packet` -/
def videoReceiverAvPacket (jerasure : Jerasure) (s : VideoReceiver) (u : TakionAVUnit)
    (env : VideoPacketEnv) : Except Fault (VideoReceiver × List VideoEvent) :=
  if s.frameIndexCur ≥ 0 ∧ seqNum16Lt u.frameIndex (toSeqNum16 s.frameIndexCur) then .ok (s, [])
  else
    match videoReceiverSelectProfile s u with
    | none => .ok (s, [])
    | some (s, header) => do
      let (s, started) ← videoReceiverNextFrame jerasure s u env
      let (s, put) ← videoReceiverPutUnit jerasure s u env.next
      return (s, header ++ started ++ put)

/-! ## Sequences of calls -/

/-- A receiver in use, with all that has happened. -/
structure VideoReceiverRun where
  receiver : VideoReceiver
  log : List VideoEvent
  fault : Option Fault

inductive VideoLabel
  | streamInfo (profiles : List Bytes)
  | avPacket (u : TakionAVUnit) (env : VideoPacketEnv)

def videoReceiverStep (jerasure : Jerasure) (s : VideoReceiverRun) :
    VideoLabel → Option VideoReceiverRun
  | l =>
    match s.fault with
    | some _ => none
    | none =>
      match l with
      | .streamInfo profiles =>
        some { s with receiver := videoReceiverStreamInfo s.receiver profiles }
      | .avPacket u env =>
        match videoReceiverAvPacket jerasure s.receiver u env with
        | .error f => some { s with fault := some f }
        | .ok (receiver, events) => some { s with receiver := receiver, log := s.log ++ events }

def videoReceiverLts (jerasure : Jerasure) : Lts VideoReceiverRun VideoLabel :=
  Lts.ofFun
    (fun s => ∃ videoSampleCb packetStats, s = ⟨videoReceiverInit videoSampleCb packetStats, [], none⟩)
    (videoReceiverStep jerasure)

end Chiaki
