import Chiaki.Properties.Common
import Chiaki.Takion.Packet

/-!
# Bytes of Takion packets

What writing into a buffer and reading out of it again means for packets:

* `takionPacketMac_eq` — a packet whose MAC is right is in memory as it arrived
* `takionParseMessage_ok` — what a message is that the parser accepts
* `takionDataAckSeqNum_packet` — the number that a DATA_ACK packet carries
-/

namespace Chiaki

variable {buf data : Bytes} {off n i : Nat}

/-! ## Message authentication codes -/

variable {κ : Type} {gmac : κ → Nat → Bytes → Mac} {crypt : Option κ} {keyPos : Nat}

/-- `takionPacketPutMac` writes the MAC only: the key position is put back. -/
theorem getElem?_takionPacketPutMac {baseType : TakionPacketType} {macOffset keyPosOffset : Nat}
    (hmac : macOffset + gkcryptGmacSize ≤ buf.length) (hkey : keyPosOffset + 4 ≤ buf.length)
    (hi : ¬ (macOffset ≤ i ∧ i < macOffset + gkcryptGmacSize)) :
    (takionPacketPutMac gmac crypt baseType macOffset keyPosOffset buf keyPos)[i]? = buf[i]? := by
  have hzero : (List.replicate gkcryptGmacSize (0 : UInt8)).length = gkcryptGmacSize := by simp
  have hzero4 : (List.replicate 4 (0 : UInt8)).length = 4 := by simp
  have htag : ∀ k buf, (gmac k keyPos buf).toList.length = gkcryptGmacSize := by simp
  -- the buffer with the MAC zeroed
  have hlen : (splice buf macOffset (List.replicate gkcryptGmacSize 0)).length = buf.length :=
    length_splice (by rw [hzero]; exact hmac)
  have hold : (splice buf macOffset (List.replicate gkcryptGmacSize 0))[i]? = buf[i]? :=
    getElem?_splice_of_not (by rw [hzero]; exact hmac) (by rw [hzero]; exact hi)
  unfold takionPacketPutMac
  cases crypt with
  | none => exact hold
  | some k =>
    simp only
    generalize splice buf macOffset (List.replicate gkcryptGmacSize 0) = b at hlen hold ⊢
    by_cases hclear : (baseType == .control || baseType == .congestion) = true
    · rw [if_pos hclear]
      have hlen' : (splice b keyPosOffset (List.replicate 4 0)).length = buf.length := by
        rw [length_splice (by rw [hzero4, hlen]; exact hkey), hlen]
      generalize hb' : splice b keyPosOffset (List.replicate 4 0) = b' at hlen' ⊢
      have hlen'' : (splice b' macOffset (gmac k keyPos b').toList).length = buf.length := by
        rw [length_splice (by rw [htag, hlen']; exact hmac), hlen']
      have hslice : (slice b keyPosOffset 4).length = 4 := length_slice (by rw [hlen]; exact hkey)
      rw [getElem?_splice (by rw [hslice, hlen'']; exact hkey), hslice]
      by_cases hin : keyPosOffset ≤ i ∧ i < keyPosOffset + 4
      · rw [if_pos hin, getElem?_slice, if_pos (by omega),
          show keyPosOffset + (i - keyPosOffset) = i by omega, hold]
      · rw [if_neg hin, getElem?_splice_of_not (by rw [htag, hlen']; exact hmac)
          (by rw [htag]; exact hi), ← hb',
          getElem?_splice_of_not (by rw [hzero4, hlen]; exact hkey) (by rw [hzero4]; exact hin), hold]
    · rw [if_neg hclear, getElem?_splice_of_not (by rw [htag, hlen]; exact hmac)
        (by rw [htag]; exact hi), hold]

/-- **A packet whose MAC is right is unchanged in memory.** -/
theorem takionPacketMac_eq {buf' mac : Bytes}
    (h : takionPacketMac gmac crypt buf keyPos = .ok (buf', mac, mac)) : buf' = buf := by
  unfold takionPacketMac at h
  split at h
  · cases h
  · split at h
    · cases h
    · next baseType _ =>
      split at h
      · next macOffset keyPosOffset _ _ =>
        split at h
        · cases h
        · next hshort =>
          simp only [Bool.or_eq_true, decide_eq_true_eq, not_or, Nat.not_lt] at hshort
          simp only [Except.ok.injEq, Prod.mk.injEq] at h
          obtain ⟨hbuf, hnew, hold⟩ := h
          rw [hbuf] at hnew
          refine List.ext_getElem? fun i => ?_
          by_cases hin : macOffset ≤ i ∧ i < macOffset + gkcryptGmacSize
          · -- inside the MAC both buffers hold the same four bytes
            have hmac := congrArg (fun m => m[i - macOffset]?) (hnew.trans hold.symm)
            simp only [getElem?_slice] at hmac
            rwa [if_pos (by omega), if_pos (by omega),
              show macOffset + (i - macOffset) = i by omega] at hmac
          · rw [← hbuf]
            exact getElem?_takionPacketPutMac hshort.1 hshort.2 hin
      · cases h

/-- The MAC of a control packet lies in front of its payload. -/
theorem takionPacketMac_payload {buf' mac mac' : Bytes}
    (hcontrol : takionPacketBaseType (u8At buf 0) = some .control)
    (h : takionPacketMac gmac crypt buf keyPos = .ok (buf', mac, mac')) :
    buf'.drop 17 = buf.drop 17 := by
  unfold takionPacketMac at h
  rw [hcontrol] at h
  simp only [takionPacketTypeMacOffset, takionPacketTypeKeyPosOffset] at h
  split at h
  · cases h
  · split at h
    · cases h
    · next hshort =>
      simp only [Bool.or_eq_true, decide_eq_true_eq, not_or, Nat.not_lt] at hshort
      cases h
      refine List.ext_getElem? fun i => ?_
      rw [List.getElem?_drop, List.getElem?_drop]
      refine getElem?_takionPacketPutMac hshort.1 hshort.2 fun hi => ?_
      have hsize : gkcryptGmacSize = 4 := rfl
      omega

/-! ## Messages -/

/-- **What a message is that the parser accepts.** -/
theorem takionParseMessage_ok {tagLocal : Nat} {keyState : KeyState} {msg : TakionMessage}
    (h : (takionParseMessage tagLocal keyState buf).2 = .ok msg) :
    takionMessageHeaderSize ≤ buf.length ∧ u32At buf 0 = tagLocal ∧
      buf.length = u16At buf 0xe + 0xc ∧ msg.chunkType = u8At buf 0xc ∧
      msg.payloadSize = buf.length - takionMessageHeaderSize ∧
      msg.payload = if 0 < msg.payloadSize then some 0x10 else none := by
  unfold takionParseMessage at h
  split at h
  · cases h
  · next hlen =>
    simp only at h
    split at h
    · cases h
    · next htag =>
      split at h
      · cases h
      · next hsize =>
        cases h
        have hsize' : buf.length = u16At buf 0xe + 0xc := Decidable.not_not.mp hsize
        refine ⟨by omega, Decidable.not_not.mp htag, hsize', rfl, ?_, rfl⟩
        show u16At buf 0xe - 0x4 = buf.length - 0x10
        omega

/-- **The receiver of a DATA_ACK packet reads the number that was put into it.** -/
theorem takionDataAckSeqNum_packet (tagRemote keyPos seqNum aRwnd : Nat) :
    takionDataAckSeqNum ((takionMessageDataAckPacket tagRemote keyPos seqNum aRwnd).drop 17)
      = some (seqNum % 2 ^ 32) := by
  have hpayload : (takionMessageDataAckPacket tagRemote keyPos seqNum aRwnd).drop 17
      = be32 seqNum ++ (be32 aRwnd ++ [0, 0] ++ [0, 0]) := rfl
  have hgaps : u16At (be32 seqNum ++ (be32 aRwnd ++ [0, 0] ++ [0, 0])) 8 = 0 := by
    simp [be32, u16At, u8At]
  have hlen : (be32 seqNum ++ (be32 aRwnd ++ [0, 0] ++ [0, 0])).length = 0xc := rfl
  rw [hpayload, takionDataAckSeqNum, u32At_be32, hgaps, hlen]
  rfl

/-! ## Reads that leave the buffer -/

/-- A computation whose only fault is a read outside of the buffer. -/
def ReadsOnly {α : Type} (x : Except Fault α) : Prop := ∀ f, x = .error f → f = .outOfBounds

theorem ReadsOnly.ok {α : Type} (a : α) : ReadsOnly (.ok a : Except Fault α) := by
  intro f h
  cases h

theorem ReadsOnly.bind {α β : Type} {x : Except Fault α} {f : α → Except Fault β}
    (hx : ReadsOnly x) (hf : ∀ a, ReadsOnly (f a)) : ReadsOnly (x >>= f) := by
  cases x with
  | error e =>
    intro e' h
    cases h
    exact hx e rfl
  | ok a => exact hf a

theorem ReadsOnly.readIf {field : Except Fault Nat} (present : Bool) (h : ReadsOnly field) :
    ReadsOnly (readIf present field) := by
  cases present with
  | false => exact .ok 0
  | true => exact h

theorem readsOnly_readU8 (buf : Bytes) (off : Nat) : ReadsOnly (readU8 buf off) := by
  intro f h
  unfold readU8 at h
  split at h
  · cases h
  · cases h
    rfl

theorem readsOnly_readU16 (buf : Bytes) (off : Nat) : ReadsOnly (readU16 buf off) :=
  (readsOnly_readU8 buf off).bind fun _ => (readsOnly_readU8 buf _).bind fun _ => .ok _

theorem readsOnly_readU32 (buf : Bytes) (off : Nat) : ReadsOnly (readU32 buf off) :=
  (readsOnly_readU16 buf off).bind fun _ => (readsOnly_readU16 buf _).bind fun _ => .ok _

theorem readsOnly_takionAVPacketParse (v12 : Bool) (keyState : KeyState) (buf : Bytes) :
    ReadsOnly (takionAVPacketParse v12 keyState buf) := by
  unfold takionAVPacketParse
  split
  · exact .ok _
  · simp only
    split
    · exact .ok _
    · split
      · exact .ok _
      · refine (readsOnly_readU16 buf 1).bind fun _ => (readsOnly_readU16 buf 3).bind fun _ =>
          (readsOnly_readU32 buf 5).bind fun _ => (readsOnly_readU8 buf 9).bind fun _ =>
          (readsOnly_readU32 buf _).bind fun _ => (readsOnly_readU8 buf _).bind fun _ => ?_
        refine (ReadsOnly.readIf _ (readsOnly_readU16 buf _)).bind fun _ => ?_
        refine (ReadsOnly.readIf _ (readsOnly_readU8 buf _)).bind fun _ => ?_
        refine (ReadsOnly.readIf _ (readsOnly_readU8 buf _)).bind fun _ => ?_
        exact (ReadsOnly.readIf _ (readsOnly_readU8 buf _)).bind fun _ => .ok _

theorem readsOnly_takionV7AVPacketParse (keyState : KeyState) (buf : Bytes) :
    ReadsOnly (takionV7AVPacketParse keyState buf) := by
  unfold takionV7AVPacketParse
  split
  · exact .ok _
  · simp only
    split
    · exact .ok _
    · split
      · exact .ok _
      · refine (readsOnly_readU16 buf 1).bind fun _ => (readsOnly_readU16 buf 3).bind fun _ =>
          (readsOnly_readU32 buf 5).bind fun _ => (readsOnly_readU8 buf 9).bind fun _ =>
          (readsOnly_readU32 buf 0xe).bind fun _ => ?_
        refine (ReadsOnly.readIf _ (readsOnly_readU16 buf _)).bind fun _ => ?_
        exact (ReadsOnly.readIf _ (readsOnly_readU8 buf _)).bind fun _ => .ok _

end Chiaki
