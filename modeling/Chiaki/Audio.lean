import Chiaki.Common

/-!
# The audio header (`audio.c`)
-/

namespace Chiaki

/-- `CHIAKI_AUDIO_HEADER_SIZE` -/
def audioHeaderSize : Nat := 0xe

/-- `ChiakiAudioHeader` -/
structure AudioHeader where
  channels : UInt8
  bits : UInt8
  rate : UInt32
  frameSize : UInt32
  unknown : UInt32
  deriving DecidableEq

/-- `chiaki_audio_header_load` -/
def audioHeaderLoad (buf : Bytes) : Except Fault AudioHeader := do
  let channels ← readU8 buf 0
  let bits ← readU8 buf 1
  let rate ← readU32 buf 2
  let frameSize ← readU32 buf 6
  let unknown ← readU32 buf 0xa
  return {
    channels := UInt8.ofNat channels
    bits := UInt8.ofNat bits
    rate := UInt32.ofNat rate
    frameSize := UInt32.ofNat frameSize
    unknown := UInt32.ofNat unknown }

/-- `chiaki_audio_header_save` -/
def audioHeaderSave (h : AudioHeader) (buf : Bytes) : Except Fault Bytes :=
  if buf.length < audioHeaderSize then .error .outOfBounds
  else
    let buf := buf.set 0 h.bits
    let buf := buf.set 1 h.channels
    let buf := splice buf 2 (be32 h.rate.toNat)
    let buf := splice buf 6 (be32 h.frameSize.toNat)
    .ok (splice buf 0xa (be32 h.unknown.toNat))

end Chiaki
