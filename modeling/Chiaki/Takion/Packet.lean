import Chiaki.Common
import Chiaki.Infra.LittleEndian
import Chiaki.KeyState

/-!
# Takion packets (`takion.c`)

The layout of the datagrams: where each type has its MAC and its key position, the message
header of control packets, and the three parsers of audio and video packets.

A pointer into a packet is an offset from the start of the buffer that the function got.
-/

namespace Chiaki

/-! ## Types -/

/-- `TakionPacketType`: the lower nibble of the first byte of a datagram. -/
inductive TakionPacketType
  | control
  | feedbackHistory
  | video
  | audio
  | handshake
  | congestion
  | feedbackState
  | clientInfo
  | padInfoEvent
  | padAdaptiveTriggers
  deriving DecidableEq, Repr

/-- `b & TAKION_PACKET_BASE_TYPE_MASK`, if the type is one of the known ones. -/
def takionPacketBaseType (b : Nat) : Option TakionPacketType :=
  match b % 16 with
  | 0 => some .control
  | 1 => some .feedbackHistory
  | 2 => some .video
  | 3 => some .audio
  | 4 => some .handshake
  | 5 => some .congestion
  | 6 => some .feedbackState
  | 8 => some .clientInfo
  | 9 => some .padInfoEvent
  | 11 => some .padAdaptiveTriggers
  | _ => none

/-- `takion_packet_type_mac_offset` -/
def takionPacketTypeMacOffset : TakionPacketType → Option Nat
  | .control => some 5
  | .video | .audio => some 0xa
  | .congestion => some 7
  | _ => none

/-- `takion_packet_type_key_pos_offset` -/
def takionPacketTypeKeyPosOffset : TakionPacketType → Option Nat
  | .control => some 0x9
  | .video | .audio => some 0xe
  | .congestion => some 0xb
  | _ => none

/-- `TakionChunkType` -/
inductive TakionChunkType
  | data
  | init
  | initAck
  | dataAck
  | cookie
  | cookieAck
  deriving DecidableEq, Repr

def TakionChunkType.ofByte : Nat → Option TakionChunkType
  | 0 => some .data
  | 1 => some .init
  | 2 => some .initAck
  | 3 => some .dataAck
  | 0xa => some .cookie
  | 0xb => some .cookieAck
  | _ => none

/-- `ChiakiTakionMessageDataType` -/
inductive TakionMessageDataType
  | protobuf
  | rumble
  | type9
  | triggerEffects
  deriving DecidableEq, Repr

def TakionMessageDataType.ofByte : Nat → Option TakionMessageDataType
  | 0 => some .protobuf
  | 7 => some .rumble
  | 9 => some .type9
  | 11 => some .triggerEffects
  | _ => none

/-! ## Message authentication codes -/

/-- `CHIAKI_GKCRYPT_GMAC_SIZE` -/
def gkcryptGmacSize : Nat := 4

abbrev Mac := Vector UInt8 gkcryptGmacSize

/-- `chiaki_takion_packet_read_key_pos` -/
def takionPacketReadKeyPos (keyState : KeyState) (buf : Bytes) : Except ErrorCode Nat :=
  if buf.length < 1 then .error .bufTooSmall
  else
    match (takionPacketBaseType (u8At buf 0)).bind takionPacketTypeKeyPosOffset with
    | none => .error .invalidData
    | some keyPosOffset =>
      if buf.length < keyPosOffset + 4 then .error .bufTooSmall
      else .ok (keyStateRequestPos keyState (u32At buf keyPosOffset) false).2

/-- The buffer after `chiaki_takion_packet_mac` has put the MAC at `macOffset`. -/
def takionPacketPutMac {κ : Type} (gmac : κ → Nat → Bytes → Mac) (crypt : Option κ)
    (baseType : TakionPacketType) (macOffset keyPosOffset : Nat) (buf : Bytes) (keyPos : Nat) :
    Bytes :=
  let buf := splice buf macOffset (List.replicate gkcryptGmacSize 0)
  match crypt with
  | none => buf
  | some k =>
    if baseType == .control || baseType == .congestion then
      -- the MAC of these two covers a zero key position
      let keyPosTmp := slice buf keyPosOffset 4
      let buf := splice buf keyPosOffset (List.replicate 4 0)
      let buf := splice buf macOffset (gmac k keyPos buf).toList
      splice buf keyPosOffset keyPosTmp
    else splice buf macOffset (gmac k keyPos buf).toList

/-- `chiaki_takion_packet_mac`: the buffer, `mac_out` and `mac_old_out`. -/
def takionPacketMac {κ : Type} (gmac : κ → Nat → Bytes → Mac) (crypt : Option κ) (buf : Bytes)
    (keyPos : Nat) : Except ErrorCode (Bytes × Bytes × Bytes) :=
  if buf.length < 1 then .error .bufTooSmall
  else
    match takionPacketBaseType (u8At buf 0) with
    | none => .error .invalidData
    | some baseType =>
      match takionPacketTypeMacOffset baseType, takionPacketTypeKeyPosOffset baseType with
      | some macOffset, some keyPosOffset =>
        if buf.length < macOffset + gkcryptGmacSize || buf.length < keyPosOffset + 4 then
          .error .bufTooSmall
        else
          let buf' := takionPacketPutMac gmac crypt baseType macOffset keyPosOffset buf keyPos
          .ok (buf', slice buf' macOffset gkcryptGmacSize, slice buf macOffset gkcryptGmacSize)
      | _, _ => .error .invalidData

/-- `chiaki_takion_packet_mac` with the buffer that it leaves behind on every return; `mac_out` and
`mac_old_out` are in the result. -/
def takionPacketMacInPlace {κ : Type} (gmac : κ → Nat → Bytes → Mac) (crypt : Option κ) (buf : Bytes)
    (keyPos : Nat) : Bytes × Except ErrorCode (Bytes × Bytes) :=
  if buf.length < 1 then (buf, .error .bufTooSmall)
  else
    match takionPacketBaseType (u8At buf 0) with
    | none => (buf, .error .invalidData)
    | some baseType =>
      match takionPacketTypeMacOffset baseType, takionPacketTypeKeyPosOffset baseType with
      | some macOffset, some keyPosOffset =>
        if buf.length < macOffset + gkcryptGmacSize || buf.length < keyPosOffset + 4 then
          (buf, .error .bufTooSmall)
        else
          let macOld := slice buf macOffset gkcryptGmacSize
          let buf := takionPacketPutMac gmac crypt baseType macOffset keyPosOffset buf keyPos
          (buf, .ok (slice buf macOffset gkcryptGmacSize, macOld))
      | _, _ => (buf, .error .invalidData)

/-! ## Messages -/

/-- `TAKION_MESSAGE_HEADER_SIZE` -/
def takionMessageHeaderSize : Nat := 0x10

/-- `takion_write_message_header`. `htonl` and `htons` keep the low bits of their argument. -/
def takionWriteMessageHeader (tag keyPos chunkType chunkFlags payloadDataSize : Nat) : Bytes :=
  be32 tag ++ List.replicate gkcryptGmacSize 0 ++ be32 keyPos
    ++ [UInt8.ofNat chunkType, UInt8.ofNat chunkFlags] ++ be16 (payloadDataSize + 4)

/-- `TakionMessage` -/
structure TakionMessage where
  tag : Nat
  keyPos : Nat
  chunkType : Nat
  chunkFlags : Nat
  payloadSize : Nat
  payload : Option Nat
  deriving DecidableEq, Repr

/-- `takion_parse_message`. The key position is committed before the checks. -/
def takionParseMessage (tagLocal : Nat) (keyState : KeyState) (buf : Bytes) :
    KeyState × Except ErrorCode TakionMessage :=
  if buf.length < takionMessageHeaderSize then (keyState, .error .invalidData)
  else
    let tag := u32At buf 0
    let r := keyStateRequestPos keyState (u32At buf 0x8) true
    let payloadSize := u16At buf 0xe
    if tag ≠ tagLocal then (r.1, .error .invalidData)
    else if buf.length ≠ payloadSize + 0xc then (r.1, .error .invalidData)
    else
      -- at least 4, because the buffer holds a header
      let payloadSize := payloadSize - 0x4
      (r.1, .ok {
        tag := tag
        keyPos := r.2
        chunkType := u8At buf 0xc
        chunkFlags := u8At buf 0xd
        payloadSize := payloadSize
        payload := if 0 < payloadSize then some 0x10 else none })

/-- The cumulative number that `takion_handle_packet_message_data_ack` takes out of a payload, if
the payload passes its checks. -/
def takionDataAckSeqNum (buf : Bytes) : Option Nat :=
  if buf.length ≠ 0xc then none
  else if buf.length ≠ u16At buf 8 * 4 + 0xc then none
  else some (u32At buf 0)

/-- The packet that `chiaki_takion_send_message_data` builds. -/
def takionMessageDataPacket (tagRemote keyPos chunkFlags seqNum channel : Nat) (buf : Bytes) :
    Bytes :=
  [0] ++ takionWriteMessageHeader tagRemote keyPos 0 chunkFlags (9 + buf.length)
    ++ be32 seqNum ++ be16 channel ++ [0, 0] ++ [0] ++ buf

/-- The packet that `chiaki_takion_send_message_data_ack` builds. -/
def takionMessageDataAckPacket (tagRemote keyPos seqNum aRwnd : Nat) : Bytes :=
  [0] ++ takionWriteMessageHeader tagRemote keyPos 3 0 0xc
    ++ be32 seqNum ++ be32 aRwnd ++ [0, 0] ++ [0, 0]

/-! ## Audio and video packets -/

/-- `ChiakiTakionAVPacket` -/
structure TakionAVPacket where
  packetIndex : Nat
  frameIndex : Nat
  usesNaluInfoStructs : Bool
  isVideo : Bool
  isHaptics : Bool
  unitIndex : Nat
  unitsInFrameTotal : Nat
  unitsInFrameFec : Nat
  codec : Nat
  wordAt0x18 : Nat
  adaptiveStreamIndex : Nat
  byteAt0x2c : Nat
  keyPos : Nat
  data : Nat
  dataSize : Nat
  deriving DecidableEq, Repr

/-- A field that only some packets have; it stays zero otherwise. -/
def readIf (present : Bool) (field : Except Fault Nat) : Except Fault Nat :=
  if present then field else .ok 0

/-- The three fields of the double word behind the indices. -/
def takionAVUnits (isVideo : Bool) (dword2 : Nat) : Nat × Nat × Nat :=
  if isVideo then
    (dword2 / 2 ^ 0x15 % 2 ^ 11, dword2 / 2 ^ 0xa % 2 ^ 11 + 1, dword2 % 2 ^ 10)
  else (dword2 / 2 ^ 0x18 % 2 ^ 8, dword2 / 2 ^ 0x10 % 2 ^ 8 + 1, dword2 % 2 ^ 16)

/-- `CHIAKI_TAKION_V9_AV_HEADER_SIZE_*`, `CHIAKI_TAKION_V12_AV_HEADER_SIZE_*` -/
def takionAVHeaderSize (v12 isVideo : Bool) : Nat :=
  if isVideo then 0x17 else if v12 then 0x13 else 0x12

/--
`av_packet_parse`. `av` and `av_size` move together; `av_size` is a `size_t`, so it wraps
around when the extra structures do not fit any more.
-/
def takionAVPacketParse (v12 : Bool) (keyState : KeyState) (buf : Bytes) :
    Except Fault (KeyState × Except ErrorCode TakionAVPacket) :=
  if buf.length < 1 then .ok (keyState, .error .bufTooSmall)
  else
    let baseType := takionPacketBaseType (u8At buf 0)
    if baseType ≠ some .video ∧ baseType ≠ some .audio then .ok (keyState, .error .invalidData)
    else
      let isVideo := baseType == some .video
      let usesNaluInfoStructs := u8At buf 0 / 2 ^ 4 % 2 != 0
      let avSize := buf.length - 1
      if avSize < takionAVHeaderSize v12 isVideo + 1 then .ok (keyState, .error .bufTooSmall)
      else do
        let packetIndex ← readU16 buf 1
        let frameIndex ← readU16 buf 3
        let units := takionAVUnits isVideo (← readU32 buf 5)
        let codec ← readU8 buf 9
        let keyPosLow ← readU32 buf (1 + 0xd)
        let r := keyStateRequestPos keyState keyPosLow true
        let _unknown1 ← readU8 buf (1 + 0x11)
        let av := 1 + 0x11
        let wordAt0x18 ← readIf isVideo (readU16 buf av)
        let adaptiveStreamIndex ← readIf isVideo (readU8 buf (av + 2))
        let av := av + if isVideo then 3 else 1
        let byteAt0x2c ← readIf isVideo (readU8 buf av)
        let av := av + if usesNaluInfoStructs then 3 else 0
        let hapticsByte ← readIf (v12 && !isVideo) (readU8 buf av)
        let av := av + if v12 && !isVideo then 1 else 0
        return (r.1, .ok {
          packetIndex := packetIndex
          frameIndex := frameIndex
          usesNaluInfoStructs := usesNaluInfoStructs
          isVideo := isVideo
          isHaptics := v12 && !isVideo && hapticsByte == 0x02
          unitIndex := units.1
          unitsInFrameTotal := units.2.1
          unitsInFrameFec := units.2.2
          codec := codec
          wordAt0x18 := wordAt0x18
          adaptiveStreamIndex := adaptiveStreamIndex / 2 ^ 5
          byteAt0x2c := byteAt0x2c
          keyPos := r.2
          data := av
          dataSize := (buf.length + 2 ^ 64 - av) % 2 ^ 64 })

/-- `chiaki_takion_v9_av_packet_parse` -/
def takionV9AVPacketParse := takionAVPacketParse false

/-- `chiaki_takion_v12_av_packet_parse` -/
def takionV12AVPacketParse := takionAVPacketParse true

/-- The header size of version 7, which `chiaki_takion_v7_av_packet_parse` checks. -/
def takionV7AVHeaderSize (isVideo usesNaluInfoStructs : Bool) : Nat :=
  0x12 + (if isVideo then 0x3 else 0) + if usesNaluInfoStructs then 0x3 else 0

/-- The bytes that `chiaki_takion_v7_av_packet_format_header` writes. `key_pos` is stored without
`htonl`, so on a little-endian machine its lowest byte comes first. -/
def takionV7AVHeader (packet : TakionAVPacket) : Bytes :=
  [UInt8.ofNat ((if packet.isVideo then 2 else 3) ||| if packet.usesNaluInfoStructs then 0x10 else 0)]
    ++ be16 packet.packetIndex ++ be16 packet.frameIndex
    ++ be32 (packet.unitsInFrameFec % 2 ^ 10
        ||| ((packet.unitsInFrameTotal + 2 ^ 11 - 1) % 2 ^ 11) <<< 0xa
        ||| (packet.unitIndex % 2 ^ 16) <<< 0x15)
    ++ [UInt8.ofNat packet.codec] ++ be32 0 ++ Infra.LittleEndian.bytes 4 packet.keyPos
    ++ (if packet.isVideo then
          be16 packet.wordAt0x18 ++ [UInt8.ofNat (packet.adaptiveStreamIndex <<< 5)]
        else [])
    ++ if packet.usesNaluInfoStructs then be16 0 ++ [0] else []

/-- `chiaki_takion_v7_av_packet_format_header`: the buffer, `header_size_out` and the result. -/
def takionV7AVPacketFormatHeader (buf : Bytes) (packet : TakionAVPacket) : Bytes × Nat × ErrorCode :=
  let headerSize := takionV7AVHeaderSize packet.isVideo packet.usesNaluInfoStructs
  if buf.length < headerSize then (buf, headerSize, .bufTooSmall)
  else (splice buf 0 (takionV7AVHeader packet), headerSize, .success)

/-- `chiaki_takion_v7_av_packet_parse`. It takes the key position as it is. -/
def takionV7AVPacketParse (keyState : KeyState) (buf : Bytes) :
    Except Fault (KeyState × Except ErrorCode TakionAVPacket) :=
  if buf.length < 1 then .ok (keyState, .error .bufTooSmall)
  else
    let baseType := takionPacketBaseType (u8At buf 0)
    if baseType ≠ some .video ∧ baseType ≠ some .audio then .ok (keyState, .error .invalidData)
    else
      let isVideo := baseType == some .video
      let usesNaluInfoStructs := u8At buf 0 / 2 ^ 4 % 2 != 0
      if buf.length < takionV7AVHeaderSize isVideo usesNaluInfoStructs then
        .ok (keyState, .error .bufTooSmall)
      else do
        let packetIndex ← readU16 buf 1
        let frameIndex ← readU16 buf 3
        let units := takionAVUnits true (← readU32 buf 5)
        let codec ← readU8 buf 9
        let keyPos ← readU32 buf 0xe
        let wordAt0x18 ← readIf isVideo (readU16 buf 0x12)
        let adaptiveStreamIndex ← readIf isVideo (readU8 buf (0x12 + 2))
        let av := takionV7AVHeaderSize isVideo usesNaluInfoStructs
        return (keyState, .ok {
          packetIndex := packetIndex
          frameIndex := frameIndex
          usesNaluInfoStructs := usesNaluInfoStructs
          isVideo := isVideo
          isHaptics := false
          unitIndex := units.1
          unitsInFrameTotal := units.2.1
          unitsInFrameFec := units.2.2
          codec := codec
          wordAt0x18 := wordAt0x18
          adaptiveStreamIndex := adaptiveStreamIndex / 2 ^ 5
          byteAt0x2c := 0
          keyPos := keyPos
          data := av
          dataSize := buf.length - av })

end Chiaki
