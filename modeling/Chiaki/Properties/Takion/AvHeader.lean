import Chiaki.Properties.Takion.Packet

/-!
# The header of version 7, written and read

`chiaki_takion_v7_av_packet_format_header` and `chiaki_takion_v7_av_packet_parse` agree on every field
but one: the position of the key is written in the byte order of the machine and read in that of the
network.

* `takionV7AVPacketParse_header` — what the parser makes out of a header that was written
* `takionV7AVPacket_roundTrips_iff` — when this is the packet itself
-/

namespace Chiaki

variable {packet : TakionAVPacket} {payload : Bytes}

/-! ## The statement -/

/-- The packets whose fields fit into the header. -/
structure FitsV7Header (packet : TakionAVPacket) : Prop where
  packetIndex : packet.packetIndex < 2 ^ 16
  frameIndex : packet.frameIndex < 2 ^ 16
  unitIndex : packet.unitIndex ≤ 0x7ff
  unitsInFrameTotal : 1 ≤ packet.unitsInFrameTotal ∧ packet.unitsInFrameTotal ≤ 0x800
  unitsInFrameFec : packet.unitsInFrameFec ≤ 0x3ff
  codec : packet.codec < 2 ^ 8
  wordAt0x18 : packet.wordAt0x18 < 2 ^ 16
  adaptiveStreamIndex : packet.adaptiveStreamIndex < 8
  keyPos : packet.keyPos < 2 ^ 32
  audio : packet.isVideo = false → packet.wordAt0x18 = 0 ∧ packet.adaptiveStreamIndex = 0

/-- The fields and the flags that the header has. -/
structure SameV7Fields (packet' packet : TakionAVPacket) : Prop where
  packetIndex : packet'.packetIndex = packet.packetIndex
  frameIndex : packet'.frameIndex = packet.frameIndex
  usesNaluInfoStructs : packet'.usesNaluInfoStructs = packet.usesNaluInfoStructs
  isVideo : packet'.isVideo = packet.isVideo
  unitIndex : packet'.unitIndex = packet.unitIndex
  unitsInFrameTotal : packet'.unitsInFrameTotal = packet.unitsInFrameTotal
  unitsInFrameFec : packet'.unitsInFrameFec = packet.unitsInFrameFec
  codec : packet'.codec = packet.codec
  wordAt0x18 : packet'.wordAt0x18 = packet.wordAt0x18
  adaptiveStreamIndex : packet'.adaptiveStreamIndex = packet.adaptiveStreamIndex
  keyPos : packet'.keyPos = packet.keyPos

/-- The header that is written into `buf`, with `payload` behind it, is parsed to the packet. -/
def RoundTripsV7 (keyState : KeyState) (buf : Bytes) (packet : TakionAVPacket) (payload : Bytes) :
    Prop :=
  ∃ buf' headerSize packet',
    takionV7AVPacketFormatHeader buf packet = (buf', headerSize, .success) ∧
    takionV7AVPacketParse keyState (buf'.take headerSize ++ payload)
      = .ok (keyState, .ok packet') ∧
    SameV7Fields packet' packet ∧
    (buf'.take headerSize ++ payload).drop packet'.data = payload ∧
    packet'.dataSize = payload.length

/-- A number of 32 bits whose bytes are read from the other end. -/
def byteSwap32 (v : Nat) : Nat :=
  v % 2 ^ 8 * 2 ^ 24 + v / 2 ^ 8 % 2 ^ 8 * 2 ^ 16 + v / 2 ^ 16 % 2 ^ 8 * 2 ^ 8 + v / 2 ^ 24 % 2 ^ 8

/-! ## Fields -/

/-- The double word with the three counts. -/
def takionV7Dword (packet : TakionAVPacket) : Nat :=
  packet.unitsInFrameFec % 2 ^ 10
    ||| ((packet.unitsInFrameTotal + 2 ^ 11 - 1) % 2 ^ 11) <<< 0xa
    ||| (packet.unitIndex % 2 ^ 16) <<< 0x15

/-- The counts do not overlap. -/
theorem takionV7Dword_eq (h : FitsV7Header packet) :
    takionV7Dword packet = 2 ^ 0x15 * packet.unitIndex
      + (2 ^ 0xa * (packet.unitsInFrameTotal - 1) + packet.unitsInFrameFec) := by
  have hunit := h.unitIndex
  have htotal := h.unitsInFrameTotal
  have hfec := h.unitsInFrameFec
  have hor : ∀ {i a b : Nat}, b < 2 ^ i → b ||| a <<< i = 2 ^ i * a + b := by
    intro i a b hb
    rw [Nat.two_pow_add_eq_or_of_lt hb, Nat.shiftLeft_eq, Nat.mul_comm, Nat.or_comm]
  unfold takionV7Dword
  rw [show packet.unitsInFrameFec % 2 ^ 10 = packet.unitsInFrameFec by omega,
    show (packet.unitsInFrameTotal + 2 ^ 11 - 1) % 2 ^ 11 = packet.unitsInFrameTotal - 1 by omega,
    show packet.unitIndex % 2 ^ 16 = packet.unitIndex by omega,
    hor (show packet.unitsInFrameFec < 2 ^ 0xa by omega), hor (by omega)]

theorem takionV7Dword_lt (h : FitsV7Header packet) : takionV7Dword packet < 2 ^ 32 := by
  have hunit := h.unitIndex
  have htotal := h.unitsInFrameTotal
  have hfec := h.unitsInFrameFec
  rw [takionV7Dword_eq h]
  omega

theorem takionAVUnits_takionV7Dword (h : FitsV7Header packet) :
    takionAVUnits true (takionV7Dword packet)
      = (packet.unitIndex, packet.unitsInFrameTotal, packet.unitsInFrameFec) := by
  have hunit := h.unitIndex
  have htotal := h.unitsInFrameTotal
  have hfec := h.unitsInFrameFec
  rw [takionV7Dword_eq h]
  unfold takionAVUnits
  simp only [if_true, Prod.mk.injEq]
  omega

/-- What `ntohl` makes out of a number that `htonl` was not applied to. -/
theorem bytes_toNat (v : Nat) :
    ((UInt8.ofNat v).toNat * 2 ^ 8 + (UInt8.ofNat (v / 256)).toNat) * 2 ^ 16
      + ((UInt8.ofNat (v / 256 / 256)).toNat * 2 ^ 8 + (UInt8.ofNat (v / 256 / 256 / 256)).toNat)
      = byteSwap32 v := by
  unfold byteSwap32
  simp only [UInt8.toNat_ofNat']
  omega

/-! ## The parser -/

theorem takionV7AVHeader_length (packet : TakionAVPacket) : (takionV7AVHeader packet).length
    = takionV7AVHeaderSize packet.isVideo packet.usesNaluInfoStructs := by
  unfold takionV7AVHeader takionV7AVHeaderSize
  cases packet.isVideo <;> cases packet.usesNaluInfoStructs <;> rfl

theorem takionV7AVHeader_type (packet : TakionAVPacket) (payload : Bytes) :
    u8At (takionV7AVHeader packet ++ payload) 0
      = (if packet.isVideo then 2 else 3) + if packet.usesNaluInfoStructs then 0x10 else 0 := by
  have hfirst : u8At (takionV7AVHeader packet ++ payload) 0
      = (UInt8.ofNat ((if packet.isVideo then 2 else 3)
        ||| if packet.usesNaluInfoStructs then 0x10 else 0)).toNat := rfl
  rw [hfirst]
  cases packet.isVideo <;> cases packet.usesNaluInfoStructs <;> rfl

/-- **All fields are read as they were written, but for the position of the key.** -/
theorem takionV7AVPacketParse_header (h : FitsV7Header packet) (keyState : KeyState)
    (payload : Bytes) :
    takionV7AVPacketParse keyState (takionV7AVHeader packet ++ payload)
      = .ok (keyState, .ok { packet with
          isHaptics := false
          byteAt0x2c := 0
          keyPos := byteSwap32 packet.keyPos
          data := takionV7AVHeaderSize packet.isVideo packet.usesNaluInfoStructs
          dataSize := payload.length }) := by
  have hlen : (takionV7AVHeader packet ++ payload).length
      = takionV7AVHeaderSize packet.isVideo packet.usesNaluInfoStructs + payload.length := by
    rw [List.length_append, takionV7AVHeader_length]
  have hpos : 0 < takionV7AVHeaderSize packet.isVideo packet.usesNaluInfoStructs := by
    unfold takionV7AVHeaderSize
    omega
  have htype : takionPacketBaseType (u8At (takionV7AVHeader packet ++ payload) 0)
      = some (if packet.isVideo then .video else .audio) := by
    rw [takionV7AVHeader_type]
    cases packet.isVideo <;> cases packet.usesNaluInfoStructs <;> rfl
  have hnalu : (u8At (takionV7AVHeader packet ++ payload) 0 / 2 ^ 4 % 2 != 0)
      = packet.usesNaluInfoStructs := by
    rw [takionV7AVHeader_type]
    cases packet.isVideo <;> cases packet.usesNaluInfoStructs <;> rfl
  have hvideo : (some (if packet.isVideo then TakionPacketType.video else .audio) == some .video)
      = packet.isVideo := by
    cases packet.isVideo <;> rfl
  -- the numbers, each at the place where it was written
  have hindex : readU16 (takionV7AVHeader packet ++ payload) 1 = .ok packet.packetIndex :=
    congrArg Except.ok (be16_toNat h.packetIndex)
  have hframe : readU16 (takionV7AVHeader packet ++ payload) 3 = .ok packet.frameIndex :=
    congrArg Except.ok (be16_toNat h.frameIndex)
  have hdword : readU32 (takionV7AVHeader packet ++ payload) 5 = .ok (takionV7Dword packet) :=
    congrArg Except.ok (be32_toNat (takionV7Dword_lt h))
  have hcodec : readU8 (takionV7AVHeader packet ++ payload) 9 = .ok packet.codec :=
    congrArg Except.ok (u8_toNat h.codec)
  have hkeyPos : readU32 (takionV7AVHeader packet ++ payload) 0xe
      = .ok (byteSwap32 packet.keyPos) := congrArg Except.ok (bytes_toNat packet.keyPos)
  have hword : readIf packet.isVideo (readU16 (takionV7AVHeader packet ++ payload) 0x12)
      = .ok packet.wordAt0x18 := by
    cases hv : packet.isVideo with
    | false => rw [(h.audio hv).1, readIf, if_neg Bool.false_ne_true]
    | true =>
      simp only [takionV7AVHeader, hv, if_true, readIf]
      exact congrArg Except.ok (be16_toNat h.wordAt0x18)
  -- the index of the stream is shifted up when it is written, and divided by the parser
  have hadaptive : readIf packet.isVideo (readU8 (takionV7AVHeader packet ++ payload) (0x12 + 2))
      = .ok (packet.adaptiveStreamIndex * 2 ^ 5) := by
    cases hv : packet.isVideo with
    | false => rw [(h.audio hv).2, Nat.zero_mul, readIf, if_neg Bool.false_ne_true]
    | true =>
      have hmod : packet.adaptiveStreamIndex <<< 5 % 2 ^ 8 = packet.adaptiveStreamIndex * 2 ^ 5 := by
        have hlt := h.adaptiveStreamIndex
        rw [Nat.shiftLeft_eq]
        omega
      simp only [takionV7AVHeader, hv, if_true, readIf]
      refine Eq.trans ?_ (congrArg Except.ok hmod)
      rw [← UInt8.toNat_ofNat']
      rfl
  have hav : ¬ (takionPacketBaseType (u8At (takionV7AVHeader packet ++ payload) 0) ≠ some .video ∧
      takionPacketBaseType (u8At (takionV7AVHeader packet ++ payload) 0) ≠ some .audio) := by
    rw [htype]
    cases packet.isVideo <;> simp
  unfold takionV7AVPacketParse
  rw [if_neg (by omega)]
  dsimp only
  rw [if_neg hav, htype, hvideo, hnalu, if_neg (by omega), hindex, hframe, hdword, hcodec, hkeyPos,
    hword, hadaptive, hlen]
  simp only [bind, Except.bind, pure, Except.pure, takionAVUnits_takionV7Dword h,
    Nat.add_sub_cancel_left, Nat.mul_div_cancel _ (show 0 < 2 ^ 5 by decide)]

/-- The header takes the place of the first bytes, whatever they were. -/
theorem takionV7AVPacketFormatHeader_ok {buf : Bytes}
    (hbuf : takionV7AVHeaderSize packet.isVideo packet.usesNaluInfoStructs ≤ buf.length) :
    ∃ buf', takionV7AVPacketFormatHeader buf packet
        = (buf', takionV7AVHeaderSize packet.isVideo packet.usesNaluInfoStructs, .success) ∧
      buf'.take (takionV7AVHeaderSize packet.isVideo packet.usesNaluInfoStructs)
        = takionV7AVHeader packet := by
  refine ⟨_, by rw [takionV7AVPacketFormatHeader, if_neg (Nat.not_lt_of_le hbuf)], ?_⟩
  rw [splice, List.take_zero, List.nil_append, ← takionV7AVHeader_length, List.take_left]

/-- **The parser returns the packet if and only if its key position reads the same from both ends.** -/
theorem takionV7AVPacket_roundTrips_iff (h : FitsV7Header packet) {buf : Bytes}
    (hbuf : takionV7AVHeaderSize packet.isVideo packet.usesNaluInfoStructs ≤ buf.length)
    (keyState : KeyState) (payload : Bytes) :
    RoundTripsV7 keyState buf packet payload ↔ byteSwap32 packet.keyPos = packet.keyPos := by
  obtain ⟨buf', hformat, htake⟩ := takionV7AVPacketFormatHeader_ok hbuf
  have hparse := takionV7AVPacketParse_header h keyState payload
  rw [← htake] at hparse
  constructor
  -- writer and parser are functions, so the packet that came back is the one of `hparse`
  · rintro ⟨buf1, headerSize, packet', hformat1, hparse1, hsame, -⟩
    rw [hformat] at hformat1
    cases hformat1
    rw [hparse] at hparse1
    cases hparse1
    exact hsame.keyPos
  · intro hswap
    refine ⟨buf', _, _, hformat, hparse,
      ⟨rfl, rfl, rfl, rfl, rfl, rfl, rfl, rfl, rfl, rfl, hswap⟩, ?_, rfl⟩
    rw [htake]
    dsimp only
    rw [← takionV7AVHeader_length, List.drop_left]

/-- A video packet with the NALU info flag, of the last unit of a frame. -/
def exampleV7Packet : TakionAVPacket where
  packetIndex := 0xfffe
  frameIndex := 0x102
  usesNaluInfoStructs := true
  isVideo := true
  isHaptics := false
  unitIndex := 0x7ff
  unitsInFrameTotal := 0x800
  unitsInFrameFec := 0x155
  codec := 0xff
  wordAt0x18 := 0x1234
  adaptiveStreamIndex := 5
  byteAt0x2c := 0
  keyPos := 0x11222211
  data := 0
  dataSize := 0

theorem takionV7AVPacket_roundTrips_iff_exampleV7Packet :
    RoundTripsV7 keyStateInit (List.replicate 24 0xaa) exampleV7Packet [1, 2, 3] := by
  have hfits : FitsV7Header exampleV7Packet := by
    constructor <;> decide
  exact (takionV7AVPacket_roundTrips_iff hfits (by decide) keyStateInit [1, 2, 3]).mpr (by decide)

/-- The same packet with another position. -/
def exampleV7PacketAtOne : TakionAVPacket := { exampleV7Packet with keyPos := 1 }

/-- **The position 1 is read as `2 ^ 24`.** -/
theorem not_takionV7AVPacket_roundTrips :
    (∃ packet', takionV7AVPacketParse keyStateInit (takionV7AVHeader exampleV7PacketAtOne ++ [1, 2, 3])
        = .ok (keyStateInit, .ok packet') ∧ packet'.keyPos = 2 ^ 24) ∧
    ¬ RoundTripsV7 keyStateInit (List.replicate 24 0xaa) exampleV7PacketAtOne [1, 2, 3] := by
  have hfits : FitsV7Header exampleV7PacketAtOne := by
    constructor <;> decide
  have hparse := takionV7AVPacketParse_header hfits keyStateInit [1, 2, 3]
  refine ⟨⟨_, hparse, by decide⟩, ?_⟩
  rintro ⟨buf', headerSize, packet', hformat, hparse', hsame, -⟩
  have hbuf : takionV7AVHeaderSize exampleV7PacketAtOne.isVideo exampleV7PacketAtOne.usesNaluInfoStructs
      ≤ (List.replicate 24 (0xaa : UInt8)).length := by decide
  obtain ⟨buf1, hformat1, htake⟩ := takionV7AVPacketFormatHeader_ok hbuf
  rw [hformat1] at hformat
  cases hformat
  rw [htake, hparse] at hparse'
  cases hparse'
  exact absurd hsame.keyPos (by decide)

end Chiaki
