import Chiaki.Properties.KeyState
import Chiaki.Properties.Takion.Packet
import Chiaki.Takion.Handshake

/-!
# Messages stay inside of their packets

* `takionParseMessage_write` — what is written is read again
* `takionParseMessage_payload` — the payload of an accepted message is the rest of the buffer
* `takionRecvMessage_returns` — a message of the handshake has the size that is expected, or it is refused
* `takionMessage_roundTrips` — the handshake reads nothing that it did not receive
-/

namespace Chiaki

variable {tag keyPos prev chunkType chunkFlags tagLocal size : Nat} {payload buf : Bytes}
  {keyState : KeyState} {arrived : Except ErrorCode Bytes} {msg : TakionMessage}

/-! ## Writing and reading -/

theorem length_takionWriteMessageHeader (tag keyPos chunkType chunkFlags n : Nat) :
    (takionWriteMessageHeader tag keyPos chunkType chunkFlags n).length = takionMessageHeaderSize :=
  rfl

/-- **What is written is read again.** -/
theorem takionParseMessage_write (htag : tag < 2 ^ 32) (hkeyPos : keyPos < 2 ^ 64)
    (hnear : KeyPosNear prev keyPos) (hchunkType : chunkType < 2 ^ 8) (hflags : chunkFlags < 2 ^ 8)
    (hlen : payload.length ≤ 0xfffb) :
    takionParseMessage tag ⟨prev⟩
        (takionWriteMessageHeader tag keyPos chunkType chunkFlags payload.length ++ payload)
      = (⟨keyPos⟩, .ok {
          tag := tag
          keyPos := keyPos
          chunkType := chunkType
          chunkFlags := chunkFlags
          payloadSize := payload.length
          payload := if 0 < payload.length then some 0x10 else none }) := by
  have hsize : (takionWriteMessageHeader tag keyPos chunkType chunkFlags payload.length
      ++ payload).length = 0x10 + payload.length := by
    rw [List.length_append, length_takionWriteMessageHeader]
    rfl
  -- what stands at each place of the header
  have hread : u32At (takionWriteMessageHeader tag keyPos chunkType chunkFlags payload.length
      ++ payload) 0 = tag := be32_toNat htag
  have hlow : u32At (takionWriteMessageHeader tag keyPos chunkType chunkFlags payload.length
      ++ payload) 0x8 = keyPos % 2 ^ 32 := be32_mod keyPos
  have htype : u8At (takionWriteMessageHeader tag keyPos chunkType chunkFlags payload.length
      ++ payload) 0xc = chunkType := u8_toNat hchunkType
  have hflag : u8At (takionWriteMessageHeader tag keyPos chunkType chunkFlags payload.length
      ++ payload) 0xd = chunkFlags := u8_toNat hflags
  have hfield : u16At (takionWriteMessageHeader tag keyPos chunkType chunkFlags payload.length
      ++ payload) 0xe = payload.length + 4 :=
    be16_toNat (show payload.length + 4 < 2 ^ 16 by omega)
  unfold takionParseMessage takionMessageHeaderSize
  rw [hsize, if_neg (by omega)]
  simp only [hread, hlow, htype, hflag, hfield, keyStateRequestPos, if_true,
    keyStatePos_of_near hkeyPos hnear, ne_eq, not_true_eq_false, if_false,
    show 0x10 + payload.length = payload.length + 4 + 0xc by omega, Nat.add_sub_cancel]

/-! ## Accepted messages -/

/-- The bytes that `payload` points to in the buffer that was parsed. -/
def TakionMessage.payloadBytes (msg : TakionMessage) (buf : Bytes) : Bytes :=
  match msg.payload with
  | none => []
  | some pl => slice buf pl msg.payloadSize

/-- **The payload of an accepted message is the rest of the buffer.** -/
theorem takionParseMessage_payload (h : (takionParseMessage tagLocal keyState buf).2 = .ok msg) :
    4 ≤ u16At buf 0xe ∧ msg.payloadSize = u16At buf 0xe - 4 ∧
      0x10 + msg.payloadSize = buf.length ∧ msg.payloadBytes buf = buf.drop 0x10 ∧
      ∀ pl, msg.payload = some pl → pl = 0x10 := by
  obtain ⟨hlen, htag, hfield, htype, hsize, hpayload⟩ := takionParseMessage_ok h
  simp only [takionMessageHeaderSize] at hlen hsize
  refine ⟨by omega, by omega, by omega, ?_, ?_⟩
  · rw [TakionMessage.payloadBytes, hpayload]
    by_cases hpos : 0 < msg.payloadSize
    · rw [if_pos hpos, hsize]
      exact slice_eq_drop buf 0x10
    · rw [if_neg hpos]
      exact (List.drop_eq_nil_of_le (by omega)).symm
  · -- the payload is either missing, or right behind the header
    intro pl hpl
    rw [hpayload] at hpl
    split at hpl
    · exact (Option.some.inj hpl).symm
    · cases hpl

/-! ## The handshake -/

/-- **A message of the handshake has the size that is expected, or it is refused.** What is longer has
been cut off, what is shorter does not come to the parser. -/
theorem takionRecvMessage_returns (hsize : 0 < size) (chunkType : TakionChunkType) (tagLocal : Nat)
    (keyState : KeyState) (arrived : Except ErrorCode Bytes) :
    ∃ keyState' r, takionRecvMessage size chunkType tagLocal keyState arrived = .ok (keyState', r) ∧
      ∀ message msg, r = .ok (message, msg) →
        (∃ datagram, arrived = .ok datagram ∧ message = datagram.take size) ∧
          message.length = size ∧
          (takionParseMessage tagLocal keyState (message.drop 1)).2 = .ok msg := by
  unfold takionRecvMessage
  cases hrecv : takionRecvInto size arrived with
  | error err => exact ⟨_, _, rfl, nofun⟩
  | ok message =>
    -- `recv` does not write past the end of the buffer
    have hcut : ∃ datagram, arrived = .ok datagram ∧ message = datagram.take size := by
      unfold takionRecvInto at hrecv
      cases arrived with
      | error err => cases hrecv
      | ok datagram =>
        simp only at hrecv
        split at hrecv
        · cases hrecv
        · exact ⟨datagram, rfl, (Except.ok.inj hrecv).symm⟩
    simp only
    by_cases hshort : message.length < size
    · rw [if_pos hshort]
      exact ⟨_, _, rfl, nofun⟩
    · rw [if_neg hshort, readU8_eq (by omega)]
      have hlen : message.length = size := by
        obtain ⟨datagram, -, hmessage⟩ := hcut
        have hle : message.length ≤ size := by rw [hmessage]; exact List.length_take_le _ _
        omega
      by_cases hcontrol : u8At message 0 ≠ 0
      · exact ⟨_, _, if_pos hcontrol, nofun⟩
      · simp only [bind, Except.bind, if_neg hcontrol]
        cases hparse : takionParseMessage tagLocal keyState (message.drop 1) with
        | mk keyState' r =>
          cases r with
          | error err => exact ⟨_, _, rfl, nofun⟩
          | ok msg =>
            by_cases hother : TakionChunkType.ofByte msg.chunkType ≠ some chunkType ∨ msg.chunkFlags ≠ 0
            · exact ⟨_, _, if_pos hother, nofun⟩
            · refine ⟨_, _, if_neg hother, ?_⟩
              intro message' msg' hr
              cases hr
              exact ⟨hcut, hlen, congrArg Prod.snd hparse⟩

/-- Every field of an INIT_ACK lies in a message of the expected size. -/
theorem takionReadInitAck_eq {message : Bytes} {pl : Nat}
    (h : pl + 0x10 + takionCookieSize ≤ message.length) :
    takionReadInitAck message pl = .ok {
      tag := u32At message pl
      aRwnd := u32At message (pl + 4)
      outboundStreams := u16At message (pl + 8)
      inboundStreams := u16At message (pl + 0xa)
      initialSeqNum := u32At message (pl + 0xc)
      cookie := slice message (pl + 0x10) takionCookieSize } := by
  have hcookie : readBytes message (pl + 0x10) takionCookieSize
      = .ok (slice message (pl + 0x10) takionCookieSize) := if_neg (by omega)
  rw [takionReadInitAck, readU32_eq (by omega), readU32_eq (by omega), readU16_eq (by omega),
    readU16_eq (by omega), readU32_eq (by omega), hcookie]
  rfl

/-- What `takion_recv_message_init_ack` returns is in the datagram behind the header. -/
theorem takionRecvMessageInitAck_returns (tagLocal : Nat) (keyState : KeyState)
    (arrived : Except ErrorCode Bytes) :
    ∃ keyState' r, takionRecvMessageInitAck tagLocal keyState arrived = .ok (keyState', r) ∧
      ∀ payload, r = .ok payload → ∃ datagram, arrived = .ok datagram ∧
        1 + takionMessageHeaderSize + 0x10 + takionCookieSize ≤ datagram.length ∧
        takionReadInitAck datagram (1 + takionMessageHeaderSize) = .ok payload := by
  obtain ⟨keyState', r, hrecv, hr⟩ := takionRecvMessage_returns
    (show 0 < 1 + takionMessageHeaderSize + 0x10 + takionCookieSize by decide) .initAck tagLocal keyState
    arrived
  unfold takionRecvMessageInitAck
  rw [hrecv]
  simp only [bind, Except.bind]
  cases r with
  | error err => exact ⟨_, _, rfl, nofun⟩
  | ok received =>
    obtain ⟨message, msg⟩ := received
    obtain ⟨⟨datagram, harrived, hcut⟩, hlen, hparse⟩ := hr message msg rfl
    obtain ⟨-, -, hsize, -, hpl⟩ := takionParseMessage_payload hparse
    obtain ⟨-, -, -, -, -, hpayload⟩ := takionParseMessage_ok hparse
    simp only [takionMessageHeaderSize, takionCookieSize, List.length_drop] at hlen hsize
    -- the assertion: the size was checked before and after the cut
    have hassert : msg.payloadSize = 0x10 + takionCookieSize := by
      rw [takionCookieSize]
      omega
    have hsome : msg.payload = some 0x10 := by
      rw [hpayload, if_pos (by omega)]
    have hread : ∀ buf : Bytes, 0x41 ≤ buf.length → _ := fun buf h =>
      @takionReadInitAck_eq buf (1 + 0x10) (by rw [takionCookieSize]; omega)
    have hle : 0x41 ≤ datagram.length := by
      rw [hcut, List.length_take] at hlen
      omega
    simp only [hassert, hsome, hread message (by omega), ne_eq, not_true_eq_false, if_false]
    refine ⟨_, _, rfl, ?_⟩
    intro payload hpay
    refine ⟨datagram, harrived, hle, ?_⟩
    rw [← Except.ok.inj hpay]
    have hrest : datagram = message ++ datagram.drop 0x41 := by
      rw [hcut]
      exact (List.take_append_drop 0x41 datagram).symm
    rw [takionMessageHeaderSize, hread datagram hle, hrest, u32At_append (by omega),
      u32At_append (by omega), u16At_append (by omega), u16At_append (by omega),
      u32At_append (by omega), slice_append (by rw [takionCookieSize]; omega)]

theorem takionRecvMessageCookieAck_returns (tagLocal : Nat) (keyState : KeyState)
    (arrived : Except ErrorCode Bytes) :
    ∃ r, takionRecvMessageCookieAck tagLocal keyState arrived = .ok r := by
  obtain ⟨keyState', r, hrecv, hr⟩ := takionRecvMessage_returns
    (show 0 < 1 + takionMessageHeaderSize by decide) .cookieAck tagLocal keyState arrived
  unfold takionRecvMessageCookieAck
  rw [hrecv]
  simp only [bind, Except.bind]
  cases r with
  | error err => exact ⟨_, rfl⟩
  | ok received =>
    obtain ⟨message, msg⟩ := received
    obtain ⟨-, hlen, hparse⟩ := hr message msg rfl
    obtain ⟨-, -, hsize, -, -⟩ := takionParseMessage_payload hparse
    simp only [takionMessageHeaderSize, List.length_drop] at hlen hsize
    exact ⟨_, if_neg (show ¬ msg.payloadSize ≠ 0 by omega)⟩

/-- **Messages come out as they went in, and stay inside of what was received.** The first part is about
messages that `takion_write_message_header` made, the second about all buffers that the parser accepts,
the third about everything that can arrive in the handshake. -/
theorem takionMessage_roundTrips :
    (∀ tag prev keyPos chunkType chunkFlags payload, tag < 2 ^ 32 → keyPos < 2 ^ 64 →
      KeyPosNear prev keyPos → chunkType < 2 ^ 8 → chunkFlags < 2 ^ 8 →
      (payload : Bytes).length ≤ 0xfffb →
      let buf := takionWriteMessageHeader tag keyPos chunkType chunkFlags payload.length ++ payload
      ∃ msg, takionParseMessage tag ⟨prev⟩ buf = (⟨keyPos⟩, .ok msg) ∧ msg.tag = tag ∧
        msg.keyPos = keyPos ∧ msg.chunkType = chunkType ∧ msg.chunkFlags = chunkFlags ∧
        msg.payloadSize = payload.length ∧ msg.payloadBytes buf = payload) ∧
    (∀ tagLocal keyState buf msg, (takionParseMessage tagLocal keyState buf).2 = .ok msg →
      4 ≤ u16At buf 0xe ∧ msg.payloadSize = u16At buf 0xe - 4 ∧ 0x10 + msg.payloadSize = buf.length ∧
        msg.payloadBytes buf = buf.drop 0x10 ∧ ∀ pl, msg.payload = some pl → pl = 0x10) ∧
    ∀ tagLocal keyState arrived,
      (∃ keyState' r, takionRecvMessageInitAck tagLocal keyState arrived = .ok (keyState', r) ∧
        ∀ payload, r = .ok payload → ∃ datagram, arrived = .ok datagram ∧
          1 + takionMessageHeaderSize + 0x10 + takionCookieSize ≤ datagram.length ∧
          takionReadInitAck datagram (1 + takionMessageHeaderSize) = .ok payload) ∧
      ∃ r, takionRecvMessageCookieAck tagLocal keyState arrived = .ok r := by
  refine ⟨?_, fun _ _ _ _ h => takionParseMessage_payload h, fun tagLocal keyState arrived =>
    ⟨takionRecvMessageInitAck_returns tagLocal keyState arrived,
      takionRecvMessageCookieAck_returns tagLocal keyState arrived⟩⟩
  intro tag prev keyPos chunkType chunkFlags payload htag hkeyPos hnear hchunkType hflags hlen
  have hparse := takionParseMessage_write htag hkeyPos hnear hchunkType hflags hlen
  refine ⟨_, hparse, rfl, rfl, rfl, rfl, rfl, ?_⟩
  rw [(takionParseMessage_payload (congrArg Prod.snd hparse)).2.2.2.1]
  exact List.drop_left' (length_takionWriteMessageHeader ..)

/-- A message whose key position is past a wrap of the low word. -/
theorem takionMessage_roundTrips_wrap :
    let buf := takionWriteMessageHeader 7 0x100000010 0 1 2 ++ [5, 6]
    ∃ msg, takionParseMessage 7 ⟨0xffffff00⟩ buf = (⟨0x100000010⟩, .ok msg) ∧ msg.tag = 7 ∧
      msg.keyPos = 0x100000010 ∧ msg.chunkType = 0 ∧ msg.chunkFlags = 1 ∧ msg.payloadSize = 2 ∧
      msg.payloadBytes buf = [5, 6] := by
  exact takionMessage_roundTrips.1 7 0xffffff00 0x100000010 0 1 [5, 6] (by decide) (by decide)
    (by decide) (by decide) (by decide) (by decide)

end Chiaki
