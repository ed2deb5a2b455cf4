import Chiaki.PacketStats
import Chiaki.VideoReceiver

/-!
# The audio receiver (`audioreceiver.c`)

A packet carries some frames for the first time, and the frames before them once more. Whatever is
newer than the last frame is handed to the audio sink or to the haptics sink.

The sinks are parameters of the receiver: only whether they have a `frame_cb` is looked at. A buffer
is a part of the data of its packet.
-/

namespace Chiaki

open Infra

/-! ## The units of a packet -/

/-- `chiaki_takion_av_packet_audio_unit_size` -/
def TakionAVPacket.audioUnitSize (packet : TakionAVPacket) : Nat :=
  packet.unitsInFrameFec / 2 ^ 8 % 2 ^ 8

/-- `chiaki_takion_av_packet_audio_source_units_count` -/
def TakionAVPacket.audioSourceUnitsCount (packet : TakionAVPacket) : Nat :=
  packet.unitsInFrameFec % 2 ^ 4

/-- `chiaki_takion_av_packet_audio_fec_units_count` -/
def TakionAVPacket.audioFecUnitsCount (packet : TakionAVPacket) : Nat :=
  packet.unitsInFrameFec / 2 ^ 4 % 2 ^ 4

/-- The frame of unit `i`. -/
def audioUnitFrame (u : TakionAVUnit) (i : Nat) : Nat :=
  let source := u.packet.audioSourceUnitsCount
  if i < source then (u.frameIndex + i) % 2 ^ 16
  else toSeqNum16 ((u.frameIndex : Int) - u.packet.audioFecUnitsCount + (i - source : Nat))

/-! ## The receiver -/

/-- `ChiakiAudioReceiver`, and whether the sinks of the session have a `frame_cb`. -/
structure AudioReceiver where
  audioFrameCb : Bool
  hapticsFrameCb : Bool
  frameIndexPrev : Nat
  frameIndexStartup : Bool
  packetStats : Option SeqPacketStats
  deriving DecidableEq

/-- A frame for its sink: `size` bytes from `off` on of the data of a packet. It is `passed` if the
sink has a `frame_cb`. -/
structure AudioFrame where
  packet : TakionAVUnit
  frameIndex : Nat
  off : Nat
  size : Nat
  passed : Bool
  deriving DecidableEq

/-- `chiaki_audio_receiver_init` -/
def audioReceiverInit (audioFrameCb hapticsFrameCb : Bool) (packetStats : Option SeqPacketStats) :
    AudioReceiver where
  audioFrameCb := audioFrameCb
  hapticsFrameCb := hapticsFrameCb
  frameIndexPrev := 0
  frameIndexStartup := true
  packetStats := packetStats

/-- The sink for the frames of a packet has a `frame_cb`. -/
def AudioReceiver.hasFrameCb (s : AudioReceiver) (u : TakionAVUnit) : Bool :=
  if u.packet.isHaptics then s.hapticsFrameCb else s.audioFrameCb

/-- `chiaki_audio_receiver_frame` -/
def audioReceiverFrame (s : AudioReceiver) (u : TakionAVUnit) (frameIndex off size : Nat) :
    AudioReceiver × List AudioFrame :=
  if !seqNum16Gt frameIndex s.frameIndexPrev then (s, [])
  else ({ s with frameIndexPrev := frameIndex }, [⟨u, frameIndex, off, size, s.hasFrameCb u⟩])

/-- "first packets will contain the same frame multiple times, ignore those" -/
def audioUnitIgnored (s : AudioReceiver) (u : TakionAVUnit) (i : Nat) : Bool :=
  let source := u.packet.audioSourceUnitsCount
  decide (source ≤ i) && s.frameIndexStartup &&
    decide (u.frameIndex + (i - source) < u.packet.audioFecUnitsCount + 1)

/-- The loop over the units, from unit `i` on. -/
def audioReceiverUnits (u : TakionAVUnit) : Nat → Nat → AudioReceiver → AudioReceiver × List AudioFrame
  | 0, _, s => (s, [])
  | n + 1, i, s =>
    if audioUnitIgnored s u i then audioReceiverUnits u n (i + 1) s
    else
      let unitSize := u.packet.audioUnitSize
      let (s, frame) := audioReceiverFrame s u (audioUnitFrame u i) (unitSize * i) unitSize
      let (s, frames) := audioReceiverUnits u n (i + 1) s
      (s, frame ++ frames)

/-- The packet has audio of the right codec, and its data are the units that it announces. -/
def audioWellFormed (u : TakionAVUnit) : Bool :=
  let packet := u.packet
  decide (packet.codec = 5) && decide (packet.dataSize ≠ 0) &&
    decide (packet.audioFecUnitsCount + packet.audioSourceUnitsCount = packet.unitsInFrameTotal) &&
    decide (packet.dataSize = packet.audioUnitSize * packet.unitsInFrameTotal)

/-- `chiaki_audio_receiver_av_packet` -/
def audioReceiverAvPacket (s : AudioReceiver) (u : TakionAVUnit) : AudioReceiver × List AudioFrame :=
  if !audioWellFormed u then (s, [])
  else
    let s := { s with
      frameIndexStartup := if u.frameIndex > 2 ^ 15 then false else s.frameIndexStartup }
    let units := u.packet.audioSourceUnitsCount + u.packet.audioFecUnitsCount
    let (s, frames) := audioReceiverUnits u units 0 s
    let stats := s.packetStats.map (packetStatsPushSeq · (UInt16.ofNat u.frameIndex))
    ({ s with packetStats := stats }, frames)

/-! ## Sequences of packets -/

/-- A receiver in use, with all frames for the sinks. -/
structure AudioReceiverRun where
  receiver : AudioReceiver
  log : List AudioFrame
  deriving DecidableEq

def audioReceiverStep (s : AudioReceiverRun) (u : TakionAVUnit) : Option AudioReceiverRun :=
  let (receiver, frames) := audioReceiverAvPacket s.receiver u
  some { receiver := receiver, log := s.log ++ frames }

def audioReceiverLts : Lts AudioReceiverRun TakionAVUnit :=
  Lts.ofFun
    (fun s => ∃ audioFrameCb hapticsFrameCb packetStats,
      s = ⟨audioReceiverInit audioFrameCb hapticsFrameCb packetStats, []⟩)
    audioReceiverStep

end Chiaki
